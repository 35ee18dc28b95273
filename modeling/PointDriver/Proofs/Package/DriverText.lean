import PointDriver.Package.Renderer
import PointDriver.Proofs.Template.Parts
import PointDriver.Proofs.Text.Lines

/-!
# The text of a driver's source

The built-in template of a driver's source means one explicit list of lines: a
fixed frame, and at four places a few lines for each parameter in declaration
order.
-/

namespace PointDriver.Package
open Template Skeleton

/-- The list that the template goes through. -/
def parametersName : String := "parameters"

/-- The parts of the template of a driver's source. -/
def driverParts : List Part :=
  [ .shown (joined ["//! Sweep point driver for: "]) "parameter_list",
    .shown (joined ["", "//!", "//! Generated by sweepgen "]) "generator_version",
    .shown (joined [". Regenerate instead of editing by hand.", "", "use std::io::Write;",
      "use std::process::ExitCode;", "", "use sweeprun::eyre::Result;",
      "use sweeprun::\x7bOptionSchema, Status, report\x7d;", "",
      "fn schema() -> OptionSchema \x7b", "    OptionSchema::new(\""]) "program",
    .each (joined ["\")"]) parametersName [joined ["", "        .parameter(\""]] (joined ["\")"]),
    .each (joined ["", "\x7d", "", "fn drive(out: &mut dyn Write) -> Result<Status> \x7b",
      "    let schema = schema();", "    let options = schema.parse(std::env::args_os())?;", "",
      "    if options.help() \x7b", "        report::usage(out, &schema)?;",
      "        return Ok(Status::Success);", "    \x7d", "",
      "    if !options.is_present(\"output_dir\") \x7b",
      "        report::missing_output_dir(out, &schema)?;",
      "        return Ok(Status::UsageError);", "    \x7d"]) parametersName
      [joined ["", "", "    if !options.is_present(\""],
        joined ["\") \x7b", "        report::missing_parameter(out, &schema, \""]]
      (joined ["\")?;", "        return Ok(Status::UsageError);", "    \x7d"]),
    .each (joined ["", "", "    let output_dir = options.string(\"output_dir\")?;"]) parametersName
      [joined ["", "    let "], joined [": f64 = options.double(\""]] (joined ["\")?;"]),
    .each (joined ["", "", "    report::output_dir(out, &output_dir)?;"]) parametersName
      [joined ["", "    report::parameter(out, \""], joined ["\", "]] (joined [")?;"]),
    .shown (joined ["", "", "    Ok(Status::Success)", "\x7d", "", "fn main() -> ExitCode \x7b",
      "    let mut stdout = std::io::stdout();", "    ExitCode::from(sweeprun::execute("])
      "lifecycle" ]

/-- What follows the last tag of the template. -/
def driverEnd : String := joined [", &mut stdout, drive))", "\x7d", ""]

/-- The template is its parts: the lines with tags fall into texts and tags. -/
theorem driver_eq_sourceOf :
    Skeleton.driver = sourceOf (driverParts.flatMap Part.cuts) driverEnd := by
  have h1 : "//! Sweep point driver for: \x7b\x7bparameter_list\x7d\x7d" =
      "//! Sweep point driver for: " ++ ("\x7b\x7b" ++ ("parameter_list" ++ ("\x7d\x7d"))) := rfl
  have h2 : "//! Generated by sweepgen \x7b\x7bgenerator_version\x7d\x7d. Regenerate instead of editing by hand." =
      "//! Generated by sweepgen " ++ ("\x7b\x7b" ++ ("generator_version" ++ ("\x7d\x7d" ++
        (". Regenerate instead of editing by hand.")))) := rfl
  have h3 : "    OptionSchema::new(\"\x7b\x7bprogram\x7d\x7d\")\x7b\x7b#each parameters\x7d\x7d" =
      "    OptionSchema::new(\"" ++ ("\x7b\x7b" ++ ("program" ++ ("\x7d\x7d" ++ ("\")" ++
        ("\x7b\x7b" ++ ("#each " ++ ("parameters" ++ ("\x7d\x7d")))))))) := rfl
  have h4 : "        .parameter(\"\x7b\x7bthis\x7d\x7d\")\x7b\x7b/each\x7d\x7d" =
      "        .parameter(\"" ++ ("\x7b\x7b" ++ ("this" ++ ("\x7d\x7d" ++ ("\")" ++
        ("\x7b\x7b" ++ ("/each" ++ ("\x7d\x7d"))))))) := rfl
  have h5 : "    \x7d\x7b\x7b#each parameters\x7d\x7d" =
      "    \x7d" ++ ("\x7b\x7b" ++ ("#each " ++ ("parameters" ++ ("\x7d\x7d")))) := rfl
  have h6 : "    if !options.is_present(\"\x7b\x7bthis\x7d\x7d\") \x7b" =
      "    if !options.is_present(\"" ++ ("\x7b\x7b" ++ ("this" ++ ("\x7d\x7d" ++ ("\") \x7b")))) := rfl
  have h7 : "        report::missing_parameter(out, &schema, \"\x7b\x7bthis\x7d\x7d\")?;" =
      "        report::missing_parameter(out, &schema, \"" ++ ("\x7b\x7b" ++ ("this" ++
        ("\x7d\x7d" ++ ("\")?;")))) := rfl
  have h8 : "    \x7d\x7b\x7b/each\x7d\x7d" =
      "    \x7d" ++ ("\x7b\x7b" ++ ("/each" ++ ("\x7d\x7d"))) := rfl
  have h9 : "    let output_dir = options.string(\"output_dir\")?;\x7b\x7b#each parameters\x7d\x7d" =
      "    let output_dir = options.string(\"output_dir\")?;" ++ ("\x7b\x7b" ++ ("#each " ++
        ("parameters" ++ ("\x7d\x7d")))) := rfl
  have h10 : "    let \x7b\x7bthis\x7d\x7d: f64 = options.double(\"\x7b\x7bthis\x7d\x7d\")?;\x7b\x7b/each\x7d\x7d" =
      "    let " ++ ("\x7b\x7b" ++ ("this" ++ ("\x7d\x7d" ++ (": f64 = options.double(\"" ++
        ("\x7b\x7b" ++ ("this" ++ ("\x7d\x7d" ++ ("\")?;" ++ ("\x7b\x7b" ++ ("/each" ++
        ("\x7d\x7d"))))))))))) := rfl
  have h11 : "    report::output_dir(out, &output_dir)?;\x7b\x7b#each parameters\x7d\x7d" =
      "    report::output_dir(out, &output_dir)?;" ++ ("\x7b\x7b" ++ ("#each " ++
        ("parameters" ++ ("\x7d\x7d")))) := rfl
  have h12 : "    report::parameter(out, \"\x7b\x7bthis\x7d\x7d\", \x7b\x7bthis\x7d\x7d)?;\x7b\x7b/each\x7d\x7d" =
      "    report::parameter(out, \"" ++ ("\x7b\x7b" ++ ("this" ++ ("\x7d\x7d" ++ ("\", " ++
        ("\x7b\x7b" ++ ("this" ++ ("\x7d\x7d" ++ (")?;" ++ ("\x7b\x7b" ++ ("/each" ++
        ("\x7d\x7d"))))))))))) := rfl
  have h13 : "    ExitCode::from(sweeprun::execute(\x7b\x7blifecycle\x7d\x7d, &mut stdout, drive))" =
      "    ExitCode::from(sweeprun::execute(" ++ ("\x7b\x7b" ++ ("lifecycle" ++ ("\x7d\x7d" ++
        (", &mut stdout, drive))")))) := rfl
  simp only [Skeleton.driver, unlines, driverLines, h1, h2, h3, h4, h5, h6, h7, h8, h9, h10, h11,
    h12, h13, List.map_cons, List.map_nil, String.join_cons, String.join_nil, sourceOf, driverParts,
    driverEnd, parametersName, Part.cuts, Part.current, Cut.source, Mark.inside, joined,
    List.flatMap_cons, List.flatMap_nil, List.cons_append, List.nil_append, List.append_nil,
    String.append_assoc, String.empty_append, String.append_empty, -String.reduceAppend]

theorem referable_parametersName : Referable parametersName ∧ parametersName ≠ Part.current :=
  ⟨⟨by decide, by decide, by decide, by decide⟩, by decide⟩

theorem referable_shown : ∀ name ∈ ["parameter_list", "generator_version", "program", "lifecycle"],
    Referable name ∧ name ≠ Part.current := by
  simp only [List.forall_mem_cons]
  refine ⟨?_, ?_, ?_, ?_, List.forall_mem_nil _⟩ <;>
    exact ⟨⟨by decide, by decide, by decide, by decide⟩, by decide⟩

/-- The texts before the tags that print a name. -/
theorem isBare_beforeNames : ∀ line ∈ ["//! Sweep point driver for: ", "//! Generated by sweepgen ",
      "    OptionSchema::new(\"", "        .parameter(\"", "    if !options.is_present(\"",
      "        report::missing_parameter(out, &schema, \"", "    let ", ": f64 = options.double(\"",
      "    report::parameter(out, \"", "\", ", "    ExitCode::from(sweeprun::execute("],
    isBare line.toList = true := by
  simp only [List.forall_mem_cons]
  and_intros <;> first | exact toList_of_eq rfl (by decide) | exact List.forall_mem_nil _

/-- The texts before the tags that start and end a loop. -/
theorem endsSolid_beforeLoops : ∀ line ∈ ["\")", "    \x7d", "\")?;", ")?;",
      "    let output_dir = options.string(\"output_dir\")?;",
      "    report::output_dir(out, &output_dir)?;"],
    isBare line.toList = true ∧ endsSolid line.toList = true := by
  simp only [List.forall_mem_cons]
  and_intros <;> first | exact toList_of_eq rfl (by decide) | exact List.forall_mem_nil _

theorem endsSolid_block {lines : List String} {line : String}
    (h : ∀ line ∈ lines, isBare (line.toList ++ ['\n']) = true) (hl : lines.getLast? = some line)
    (hs : isBare line.toList = true ∧ endsSolid line.toList = true) :
    isBare (joined lines).toList = true ∧ endsSolid (joined lines).toList = true :=
  ⟨isBare_joined h hl hs.1, endsSolid_joined hl hs.2⟩

/-- The parts can be told apart: no line holds a tag, and no loop has a line to itself. -/
theorem isRead_driverParts : ∀ part ∈ driverParts, part.IsRead := by
  have hbare := isBare_beforeNames
  have hsolid := endsSolid_beforeLoops
  simp only [driverParts, List.forall_mem_cons, Part.IsRead]
  refine ⟨⟨isBare_joined ?_ rfl (hbare _ (by decide)), referable_shown _ (by decide)⟩,
    ⟨isBare_joined ?_ rfl (hbare _ (by decide)), referable_shown _ (by decide)⟩,
    ⟨isBare_joined ?_ rfl (hbare _ (by decide)), referable_shown _ (by decide)⟩,
    ⟨endsSolid_block ?_ rfl (hsolid _ (by decide)), referable_parametersName,
      ⟨isBare_joined ?_ rfl (hbare _ (by decide)), List.forall_mem_nil _⟩,
      endsSolid_block ?_ rfl (hsolid _ (by decide))⟩,
    ⟨endsSolid_block ?_ rfl (hsolid _ (by decide)), referable_parametersName,
      ⟨isBare_joined ?_ rfl (hbare _ (by decide)), isBare_joined ?_ rfl (hbare _ (by decide)),
        List.forall_mem_nil _⟩, endsSolid_block ?_ rfl (hsolid _ (by decide))⟩,
    ⟨endsSolid_block ?_ rfl (hsolid _ (by decide)), referable_parametersName,
      ⟨isBare_joined ?_ rfl (hbare _ (by decide)), isBare_joined ?_ rfl (hbare _ (by decide)),
        List.forall_mem_nil _⟩, endsSolid_block ?_ rfl (hsolid _ (by decide))⟩,
    ⟨endsSolid_block ?_ rfl (hsolid _ (by decide)), referable_parametersName,
      ⟨isBare_joined ?_ rfl (hbare _ (by decide)), isBare_joined ?_ rfl (hbare _ (by decide)),
        List.forall_mem_nil _⟩, endsSolid_block ?_ rfl (hsolid _ (by decide))⟩,
    ⟨isBare_joined ?_ rfl (hbare _ (by decide)), referable_shown _ (by decide)⟩,
    List.forall_mem_nil _⟩
  -- What is left are the lines before the last of each text: none of them holds a tag.
  all_goals
    simp only [List.forall_mem_cons]
    and_intros <;> first
      | exact toList_of_eq (p := fun cs => isBare (cs ++ ['\n'])) rfl (by decide)
      | exact List.forall_mem_nil _

theorem isBare_driverEnd : isBare driverEnd.toList = true := by
  refine isBare_joined ?_ rfl (by decide)
  simp only [List.forall_mem_cons]
  refine ⟨?_, by decide, by decide, List.forall_mem_nil _⟩
  exact toList_of_eq (p := fun cs => isBare (cs ++ ['\n'])) rfl (by decide)

/-- The line that adds a parameter to the schema. -/
def schemaLine (name : String) : String := "        .parameter(\"" ++ (name ++ "\")")

/-- The lines that check that a parameter is given. -/
def checkLines (name : String) : List String :=
  [ "", "    if !options.is_present(\"" ++ (name ++ "\") \x7b"),
    "        report::missing_parameter(out, &schema, \"" ++ (name ++ "\")?;"),
    "        return Ok(Status::UsageError);",
    "    \x7d" ]

/-- The line that reads a parameter. -/
def bindingLine (name : String) : String :=
  "    let " ++ (name ++ (": f64 = options.double(\"" ++ (name ++ "\")?;")))

/-- The line that reports a parameter. -/
def reportLine (name : String) : String :=
  "    report::parameter(out, \"" ++ (name ++ ("\", " ++ (name ++ ")?;")))

/-- The lines of the function that makes the schema. -/
def schemaLines (program : String) (names : List String) : List String :=
  ("    OptionSchema::new(\"" ++ (program ++ "\")")) :: names.map schemaLine

/-- The lines of the function that does the work. -/
def driveLines (names : List String) : List String :=
  [ "    let schema = schema();",
    "    let options = schema.parse(std::env::args_os())?;",
    "",
    "    if options.help() \x7b",
    "        report::usage(out, &schema)?;",
    "        return Ok(Status::Success);",
    "    \x7d",
    "",
    "    if !options.is_present(\"output_dir\") \x7b",
    "        report::missing_output_dir(out, &schema)?;",
    "        return Ok(Status::UsageError);",
    "    \x7d" ] ++ names.flatMap checkLines ++
    ["", "    let output_dir = options.string(\"output_dir\")?;"] ++ names.map bindingLine ++
    ["", "    report::output_dir(out, &output_dir)?;"] ++ names.map reportLine ++
    ["", "    Ok(Status::Success)"]

/-- The lines before the functions. -/
def headLines (d : Declaration) : List String :=
  [ "//! Sweep point driver for: " ++ parameterList d,
    "//!",
    "//! Generated by sweepgen " ++
      (generatorVersion ++ ". Regenerate instead of editing by hand."),
    "",
    "use std::io::Write;",
    "use std::process::ExitCode;",
    "",
    "use sweeprun::eyre::Result;",
    "use sweeprun::\x7bOptionSchema, Status, report\x7d;",
    "" ]

/-- The first line of the function that makes the schema. -/
def schemaHeader : String := "fn schema() -> OptionSchema \x7b"

/-- The first line of the function that does the work. -/
def driveHeader : String := "fn drive(out: &mut dyn Write) -> Result<Status> \x7b"

/-- The lines behind these two functions. -/
def mainLines (lifecycle : String) : List String :=
  [ "",
    "fn main() -> ExitCode \x7b",
    "    let mut stdout = std::io::stdout();",
    "    ExitCode::from(sweeprun::execute(" ++ (lifecycle ++ ", &mut stdout, drive))"),
    "\x7d" ]

/-- The lines of a driver's source. -/
def sourceLines (d : Declaration) (s : DriverSettings) : List String :=
  headLines d ++ schemaHeader :: (schemaLines s.program d.names ++
    "\x7d" :: "" :: driveHeader :: (driveLines d.names ++ "\x7d" :: mainLines s.lifecycle))

theorem joined_break {lines : List String} (h : lines ≠ []) (rest : String) :
    joined lines ++ ("\n" ++ rest) = unlines lines ++ rest := by
  induction lines using joined.induct with
  | case1 => exact absurd rfl h
  | case2 line => simp only [joined, unlines_cons, String.append_assoc]; rfl
  | case3 line next more ih =>
      rw [joined, unlines_cons, String.append_assoc, String.append_assoc, ih (by simp),
        String.append_assoc, String.append_assoc]

/-- The lines of a loop, each with a break before it. -/
def loopText (lines : String → List String) (names : List String) : String :=
  String.join (names.map fun name => "\n" ++ joined (lines name))

/-- Breaks before the lines of a loop are breaks behind the line before each. -/
theorem loopText_break (lines : String → List String) (h : ∀ name, lines name ≠ [])
    (names : List String) (rest : String) :
    loopText lines names ++ ("\n" ++ rest) =
      "\n" ++ (unlines (names.flatMap lines) ++ rest) := by
  induction names with
  | nil => simp [loopText, unlines]
  | cons name names ih =>
      rw [List.flatMap_cons, unlines_append]
      calc loopText lines (name :: names) ++ ("\n" ++ rest)
          = "\n" ++ (joined (lines name) ++ (loopText lines names ++ ("\n" ++ rest))) := by
              simp only [loopText, List.map_cons, String.join_cons, String.append_assoc]
        _ = "\n" ++ (joined (lines name) ++
              ("\n" ++ (unlines (names.flatMap lines) ++ rest))) := by rw [ih]
        _ = "\n" ++ (unlines (lines name) ++ (unlines (names.flatMap lines) ++ rest)) := by
              rw [joined_break (h name)]
        _ = _ := by rw [String.append_assoc]

/-- Lines with a name between the last of them and the first of those behind. -/
def interpolated (name : String) (behind : List String) : List String → List String
  | [] => (name ++ behind.headD "") :: behind.tail
  | [line] => (line ++ (name ++ behind.headD "")) :: behind.tail
  | line :: next :: more => line :: interpolated name behind (next :: more)

theorem joined_prepend (front : String) (lines : List String) :
    joined ((front ++ lines.headD "") :: lines.tail) = front ++ joined lines := by
  cases lines with
  | nil => rfl
  | cons line lines =>
      cases lines with
      | nil => rfl
      | cons next more => exact String.append_assoc

theorem joined_interpolated (name : String) (behind lines : List String) :
    joined (interpolated name behind lines) = joined lines ++ (name ++ joined behind) := by
  induction lines using joined.induct with
  | case1 =>
      rw [interpolated, joined_prepend, joined, String.empty_append]
  | case2 line =>
      rw [interpolated, ← String.append_assoc, joined_prepend, joined, String.append_assoc]
  | case3 line next more ih =>
      have hfilled : ∃ first rest, interpolated name behind (next :: more) = first :: rest := by
        cases more <;> exact ⟨_, _, rfl⟩
      obtain ⟨first, rest, hlines⟩ := hfilled
      rw [interpolated, joined, String.append_assoc, String.append_assoc, ← ih, hlines, joined]

/-- What a loop prints for a name are the lines of its texts, with the name between them. -/
theorem itemText_joined (name : String) (texts : List (List String)) (closing : List String) :
    Part.itemText (texts.map joined) (joined closing) name =
      joined (texts.foldr (fun text behind => interpolated name behind text) closing) := by
  induction texts with
  | nil => rw [Part.itemText, List.map_nil, List.map_nil, String.join_nil, String.empty_append]; rfl
  | cons text texts ih =>
      rw [List.foldr_cons, joined_interpolated, ← ih]
      simp only [Part.itemText, List.map_cons, String.join_cons, String.append_assoc]

/-- A loop prints, for each name, a break and the lines of the name. -/
theorem join_itemText {lines : String → List String} {texts : List (List String)}
    {closing : List String} (h : ∀ name,
      texts.foldr (fun text behind => interpolated name behind text) closing = "" :: lines name)
    (hfilled : ∀ name, lines name ≠ []) (names : List String) :
    String.join (names.map (Part.itemText (texts.map joined) (joined closing))) =
      loopText lines names := by
  have hitem : ∀ name, Part.itemText (texts.map joined) (joined closing) name =
      "\n" ++ joined (lines name) := by
    intro name
    obtain ⟨line, more, hlines⟩ := List.exists_cons_of_ne_nil (hfilled name)
    rw [itemText_joined, h, hlines, joined, String.empty_append]
  rw [loopText, funext hitem]

section Loops
variable (names : List String)

theorem join_schemaLines :
    String.join (names.map
      (Part.itemText [joined ["", "        .parameter(\""]] (joined ["\")"]))) =
      loopText (fun name => [schemaLine name]) names :=
  @join_itemText _ [_] _ (fun _ => rfl) (fun _ => List.cons_ne_nil _ _) names

theorem join_checkLines :
    String.join (names.map (Part.itemText
      [joined ["", "", "    if !options.is_present(\""],
        joined ["\") \x7b", "        report::missing_parameter(out, &schema, \""]]
      (joined ["\")?;", "        return Ok(Status::UsageError);", "    \x7d"]))) =
      loopText checkLines names :=
  @join_itemText _ [_, _] _ (fun _ => rfl) (fun _ => List.cons_ne_nil _ _) names

theorem join_bindingLines :
    String.join (names.map (Part.itemText
      [joined ["", "    let "], joined [": f64 = options.double(\""]] (joined ["\")?;"]))) =
      loopText (fun name => [bindingLine name]) names :=
  @join_itemText _ [_, _] _ (fun _ => rfl) (fun _ => List.cons_ne_nil _ _) names

theorem join_reportLines :
    String.join (names.map (Part.itemText
      [joined ["", "    report::parameter(out, \""], joined ["\", "]] (joined [")?;"]))) =
      loopText (fun name => [reportLine name]) names :=
  @join_itemText _ [_, _] _ (fun _ => rfl) (fun _ => List.cons_ne_nil _ _) names

/-- The loop of one line for each name. -/
theorem lineLoop_break (line : String → String) (rest : String) :
    loopText (fun name => [line name]) names ++ ("\n" ++ rest) =
      "\n" ++ (unlines (names.map line) ++ rest) := by
  rw [loopText_break _ (fun _ => List.cons_ne_nil _ _), List.map_eq_flatMap]

theorem checkLoop_break (rest : String) :
    loopText checkLines names ++ ("\n" ++ rest) =
      "\n" ++ (unlines (names.flatMap checkLines) ++ rest) :=
  loopText_break checkLines (fun _ => List.cons_ne_nil _ _) names rest

end Loops

/-- The texts that the template's names stand for. -/
def driverValue (d : Declaration) (s : DriverSettings) (name : String) : String :=
  ([("generator_version", generatorVersion), ("program", s.program), ("lifecycle", s.lifecycle),
    ("parameter_list", parameterList d)].lookup name).getD ""

/-- What the parts stand for is the text of the lines. -/
theorem rendered_driverParts (d : Declaration) (s : DriverSettings) :
    String.join (driverParts.map (Part.rendered (driverValue d s) fun _ => d.names)) ++ driverEnd =
      unlines (sourceLines d s) := by
  have hlist : driverValue d s "parameter_list" = parameterList d := rfl
  have hversion : driverValue d s "generator_version" = generatorVersion := rfl
  have hprogram : driverValue d s "program" = s.program := rfl
  have hlifecycle : driverValue d s "lifecycle" = s.lifecycle := rfl
  simp only [driverParts, List.map_cons, List.map_nil, Part.rendered, join_schemaLines,
    join_checkLines, join_bindingLines, join_reportLines]
  simp only [String.join_cons, String.join_nil, joined, driverEnd, hlist, hversion, hprogram,
    hlifecycle, String.append_assoc, String.empty_append, String.append_empty,
    -String.reduceAppend]
  simp only [lineLoop_break, checkLoop_break]
  unfold sourceLines headLines schemaHeader schemaLines driveHeader driveLines mainLines
  simp only [unlines_append, unlines_cons, unlines_nil, List.cons_append, List.nil_append,
    String.append_assoc, String.empty_append, String.append_empty, -String.reduceAppend]

/-- The built-in template can be rendered for every declaration, and it means these lines. -/
theorem render?_driver (d : Declaration) (s : DriverSettings) :
    Template.render? Skeleton.driver (driverContext d s) = some (unlines (sourceLines d s)) := by
  have hdefined : ∀ part ∈ driverParts, part.Defined
      [("generator_version", .text generatorVersion), ("program", .text s.program),
        ("lifecycle", .text s.lifecycle), ("parameters", .array (d.names.map .text)),
        ("parameter_list", .text (parameterList d))] (driverValue d s) (fun _ => d.names) := by
    simp only [driverParts, List.forall_mem_cons]
    exact ⟨rfl, rfl, rfl, rfl, rfl, rfl, rfl, rfl, List.forall_mem_nil _⟩
  rw [driver_eq_sourceOf, driverContext,
    render?_parts isRead_driverParts isBare_driverEnd hdefined, rendered_driverParts]

/-- A built-in template that can be rendered is rendered, wherever files come from. -/
theorem Renderer.render_of_template? {m : Type → Type} [Monad m] [LawfulMonad m] [Files m]
    {name template text : String} {context : Json} (ht : Skeleton.template? name = some template)
    (hr : Template.render? template context = some text) :
    (Renderer.builtIn.render name context : Generating m String) = pure text := by
  have htemplate : (Renderer.builtIn.template name : Generating m String) = pure template := by
    simp only [Renderer.template, Renderer.builtIn, Renderer.builtInTemplate, ht]
  rw [Renderer.render, htemplate, pure_bind, hr]

/-- The built-in template gives the source of every declaration. -/
theorem Renderer.renderDriver_builtIn {m : Type → Type} [Monad m] [LawfulMonad m] [Files m]
    (d : Declaration) (s : DriverSettings) :
    (Renderer.builtIn.renderDriver d s : Generating m String) = pure (unlines (sourceLines d s)) :=
  render_of_template? rfl (render?_driver d s)

end PointDriver.Package

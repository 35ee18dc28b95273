/-! # Built-in templates

The templates of a driver's source and of its package manifest, used wherever
no template of the same name overrides them. Each is given line by line. -/

namespace PointDriver.Skeleton

/-- The name of the template for a driver's source. -/
def driverName : String := "driver.rs"

/-- The name of the template for a package manifest. -/
def manifestName : String := "Cargo.toml"

/-- Lines as a text, with a break behind each. -/
def unlines (lines : List String) : String := String.join (lines.map (· ++ "\n"))

/-- The lines of a driver's source. -/
def driverLines : List String :=
  [ "//! Sweep point driver for: \x7b\x7bparameter_list\x7d\x7d",
    "//!",
    "//! Generated by sweepgen \x7b\x7bgenerator_version\x7d\x7d. Regenerate instead of editing by hand.",
    "",
    "use std::io::Write;",
    "use std::process::ExitCode;",
    "",
    "use sweeprun::eyre::Result;",
    "use sweeprun::\x7bOptionSchema, Status, report\x7d;",
    "",
    "fn schema() -> OptionSchema \x7b",
    "    OptionSchema::new(\"\x7b\x7bprogram\x7d\x7d\")\x7b\x7b#each parameters\x7d\x7d",
    "        .parameter(\"\x7b\x7bthis\x7d\x7d\")\x7b\x7b/each\x7d\x7d",
    "\x7d",
    "",
    "fn drive(out: &mut dyn Write) -> Result<Status> \x7b",
    "    let schema = schema();",
    "    let options = schema.parse(std::env::args_os())?;",
    "",
    "    if options.help() \x7b",
    "        report::usage(out, &schema)?;",
    "        return Ok(Status::Success);",
    "    \x7d",
    "",
    "    if !options.is_present(\"output_dir\") \x7b",
    "        report::missing_output_dir(out, &schema)?;",
    "        return Ok(Status::UsageError);",
    "    \x7d\x7b\x7b#each parameters\x7d\x7d",
    "",
    "    if !options.is_present(\"\x7b\x7bthis\x7d\x7d\") \x7b",
    "        report::missing_parameter(out, &schema, \"\x7b\x7bthis\x7d\x7d\")?;",
    "        return Ok(Status::UsageError);",
    "    \x7d\x7b\x7b/each\x7d\x7d",
    "",
    "    let output_dir = options.string(\"output_dir\")?;\x7b\x7b#each parameters\x7d\x7d",
    "    let \x7b\x7bthis\x7d\x7d: f64 = options.double(\"\x7b\x7bthis\x7d\x7d\")?;\x7b\x7b/each\x7d\x7d",
    "",
    "    report::output_dir(out, &output_dir)?;\x7b\x7b#each parameters\x7d\x7d",
    "    report::parameter(out, \"\x7b\x7bthis\x7d\x7d\", \x7b\x7bthis\x7d\x7d)?;\x7b\x7b/each\x7d\x7d",
    "",
    "    Ok(Status::Success)",
    "\x7d",
    "",
    "fn main() -> ExitCode \x7b",
    "    let mut stdout = std::io::stdout();",
    "    ExitCode::from(sweeprun::execute(\x7b\x7blifecycle\x7d\x7d, &mut stdout, drive))",
    "\x7d"]

/-- The lines of a package manifest. -/
def manifestLines : List String :=
  [ "[package]",
    "name = \"\x7b\x7bpackage\x7d\x7d\"",
    "version = \"0.1.0\"",
    "edition = \"2024\"",
    "description = \"Sweep point driver for: \x7b\x7bparameter_list\x7d\x7d\"",
    "",
    "[[bin]]",
    "name = \"\x7b\x7bprogram\x7d\x7d\"",
    "path = \"src/main.rs\"",
    "",
    "[dependencies]",
    "\x7b\x7bruntime_dependency\x7d\x7d"]

/-- The template of a driver's source. -/
def driver : String := unlines driverLines

/-- The template of a package manifest. -/
def manifest : String := unlines manifestLines

/-- The built-in template with the name. -/
def template? (name : String) : Option String :=
  if name == driverName then some driver
  else if name == manifestName then some manifest
  else none

end PointDriver.Skeleton

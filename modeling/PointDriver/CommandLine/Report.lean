import PointDriver.CommandLine.Basic

/-! # Usage and fault texts

The line that shows how a command is used, tables of options with their
descriptions, and what is said about a command line that cannot be read.

Names and arguments stand in these texts with all their characters. Control
characters and escape sequences for a terminal are among them; a writer that
takes them out of what it shows is not part of the model. -/

namespace PointDriver.CommandLine

/-- The usage line of a command. A command without a name leaves no gap. -/
def usageLine (command : String) (arguments : List String) : String :=
  " ".intercalate ("Usage:" :: (if command.isEmpty then [] else [command]) ++ arguments)

/-- A row of a table: a label and what it means. -/
structure Row where
  label : String
  help : String
  deriving DecidableEq, Repr

/-- The width of the widest label. -/
def labelWidth (rows : List Row) : Nat :=
  rows.foldl (fun width row => max width row.label.length) 0

/-- Whether the descriptions stand on lines of their own. They do when labels
take more than two fifths of a hundred columns and some description does not
fit into the rest. -/
def isStacked (rows : List Row) : Bool :=
  let taken := labelWidth rows + 4
  40 < taken && taken ≤ 100 && rows.any fun row => 100 - taken < row.help.length

/-- A number of blanks. -/
def blanks (n : Nat) : String := String.ofList (List.replicate n ' ')

/-- A row as text. -/
def Row.text (stacked : Bool) (width : Nat) (row : Row) : String :=
  if stacked then "  " ++ row.label ++ "\n" ++ blanks 10 ++ row.help ++ "\n"
  else "  " ++ row.label ++ blanks (width - row.label.length) ++ "  " ++ row.help ++ "\n"

/-- A table with its heading. -/
def tableText (heading : String) (rows : List Row) : String :=
  heading ++ ":\n" ++
    String.join (rows.map (Row.text (isStacked rows) (labelWidth rows)))

/-- The label of an option in a table: names line up whether or not a letter
stands before them. -/
def Spec.tableLabel (s : Spec) : String :=
  match s.role, s.letter with
  | .operand _, _ => s.label
  | _, some c => "-" ++ c.toString ++ ", " ++ s.label
  | _, none => blanks 4 ++ s.label

namespace Fault

/-- What is wrong, in one line. -/
def headline : Fault → String
  | unknownArgument shown => "error: unexpected argument '" ++ shown ++ "' found"
  | unknownOption name _ _ => "error: unexpected argument '--" ++ name ++ "' found"
  | surplusValue value option _ =>
      "error: unexpected value '" ++ value ++ "' for '" ++ option.label ++
        "' found; no more were expected"
  | repeatedOption option =>
      "error: the argument '" ++ option.label ++ "' cannot be used multiple times"
  | missingValue option =>
      "error: a value is required for '" ++ option.label ++ "' but none was supplied"
  | brokenText => "error: invalid UTF-8 was detected in one or more arguments"
  | page _ => ""
  | unknownCommand shown => "error: unrecognized subcommand '" ++ shown ++ "'"
  | missingCommand program =>
      "error: '" ++ program ++ "' requires a subcommand but one was not provided"
  | noArguments => ""
  | missingOperand _ => "error: the following required arguments were not provided:"

/-- The labels of options, or the word for any of them if there are none. -/
def usedLabels (used : List Spec) : List String :=
  if used.isEmpty then ["[OPTIONS]"] else used.map (·.label)

/-- Adds an option at the end of a list that does not have it. -/
def withOption (used : List Spec) (s : Spec) : List Spec :=
  if used.any fun u => u.name == s.name then used else used ++ [s]

/-- The whole text about a fault in the arguments of a command. -/
def text (command : String) (fault : Fault) : String :=
  let usage (arguments : List String) : String :=
    "\n\n" ++ usageLine command arguments ++ "\n"
  match fault with
  | unknownOption _ none used => fault.headline ++ usage (usedLabels used)
  | unknownOption _ (some similar) used =>
      fault.headline ++ "\n\n  tip: a similar argument exists: '--" ++ similar.name ++ "'" ++
        usage (usedLabels (withOption used similar))
  | surplusValue _ option used =>
      fault.headline ++
        usage (usedLabels ((used.filter fun u => u.name != option.name) ++ [option]))
  | missingValue _ => fault.headline ++ "\n"
  | _ => fault.headline ++ usage ["[OPTIONS]"]

end Fault

end PointDriver.CommandLine

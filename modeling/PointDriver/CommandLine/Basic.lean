import PointDriver.Text.Utf8
import PointDriver.Text.Similarity
import PointDriver.Double.Literal

/-! # Options and arguments

What a command line may hold: options that take a value, flags, and operands,
which are values without a name. An argument is a byte sequence, and its first
bytes say which of these it can be. -/

namespace PointDriver.CommandLine

/-- What the bytes of a value must be. -/
inductive Content where
  /-- A text, possibly empty. -/
  | text
  /-- A path, which is not empty but may be any bytes. -/
  | path
  deriving DecidableEq, Repr

/-- How an option takes its value. -/
structure Value where
  /-- What stands for the value in texts about the option. -/
  placeholder : String
  content : Content
  /-- Whether a negative number may follow as an argument of its own. -/
  numeric : Bool
  /-- Whether the option may be given more than once. -/
  repeats : Bool
  deriving DecidableEq, Repr

/-- A page that is shown instead of doing the job. -/
inductive Page where
  | help
  | version
  deriving DecidableEq, Repr

/-- What an option does. -/
inductive Role where
  /-- It is either given or not. -/
  | flag
  /-- It asks for a page. -/
  | page (page : Page)
  | value (value : Value)
  /-- It is not named: a word that no option takes is its value. -/
  | operand (value : Value)
  deriving DecidableEq, Repr

/-- An option of a command. -/
structure Spec where
  name : String
  /-- The letter that may stand for the name after a single dash. -/
  letter : Option Char
  role : Role
  deriving DecidableEq, Repr

/-- The option as texts about it show it. -/
def Spec.label (s : Spec) : String :=
  match s.role with
  | .flag | .page _ => "--" ++ s.name
  | .value v => "--" ++ s.name ++ " <" ++ v.placeholder ++ ">"
  | .operand v => "<" ++ v.placeholder ++ ">"

/-- The option with the name. -/
def named? (table : List Spec) (name : String) : Option Spec :=
  table.find? fun s => s.name == name

/-- The option with the letter. -/
def lettered? (table : List Spec) (letter : Char) : Option Spec :=
  table.find? fun s => s.letter == some letter

/-- An argument by its first bytes. -/
inductive Word where
  /-- Two dashes alone: no option follows. -/
  | escape
  /-- Two dashes and a name, with the text behind the first equals sign. -/
  | long (name : Bytes) (value : Option Bytes)
  /-- One dash and letters. -/
  | letters (rest : Bytes)
  /-- Everything else, the single dash included. -/
  | plain
  deriving DecidableEq, Repr

/-- The byte of a dash. -/
def dash : UInt8 := 0x2D

/-- The byte of an equals sign. -/
def equals : UInt8 := 0x3D

/-- The kind of an argument. -/
def Word.ofBytes : Bytes → Word
  | a :: b :: rest =>
      if a != dash then plain
      else if b != dash then letters (b :: rest)
      else if rest.isEmpty then escape
      else
        match rest.dropWhile (· != equals) with
        | [] => long rest none
        | _ :: value => long (rest.takeWhile (· != equals)) (some value)
  | _ => plain

/-- Whether a text after a dash looks like a number: digits, perhaps a point
that is not first, perhaps an exponent letter with digits alone behind it. -/
def isNumberLike (cs : List Char) : Bool :=
  !(cs.takeWhile Char.isDigit).isEmpty &&
    match (Literal.fraction (cs.dropWhile Char.isDigit)).2 with
    | [] => true
    | e :: digits => (e == 'e' || e == 'E') && !digits.isEmpty && digits.all Char.isDigit

/-- Why a command line is not read to its end. -/
inductive Fault where
  /-- An argument that nothing takes. -/
  | unknownArgument (shown : String)
  /-- An option that the table does not have, with the label of a similar one
  and the labels of those given before. -/
  | unknownOption (name : String) (similar : Option Spec) (used : List Spec)
  /-- A value for an option that takes none. -/
  | surplusValue (value : String) (option : Spec) (used : List Spec)
  /-- An option that is given again. -/
  | repeatedOption (option : Spec)
  /-- An option without its value. -/
  | missingValue (option : Spec)
  /-- A text with broken bytes. -/
  | brokenText
  /-- Not a fault: the reader asks for a page. -/
  | page (page : Page)
  /-- No command has this name. -/
  | unknownCommand (shown : String)
  /-- There are arguments, but none is a command of the program. -/
  | missingCommand (program : String)
  /-- There are no arguments at all. -/
  | noArguments
  /-- A command without its operand. -/
  | missingOperand (operand : Spec)
  deriving DecidableEq, Repr

end PointDriver.CommandLine

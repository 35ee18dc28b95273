import PointDriver.SweepPoint
import PointDriver.Proofs.Emitted.Syntax

/-!
# Running a generated source

The statements of a generated source run in text order with one environment: a
local is bound by its statement and looked up by its name wherever it is used.
Calls on the runtime library mean the operations of this library, and a failure
that is attempted ends the function with it.
-/

namespace PointDriver.Emitted

/-- A value of a generated source. -/
inductive Value where
  | unit
  /-- Where the output goes. -/
  | out
  | text (text : String)
  | number (x : Double)
  | truth (b : Bool)
  | arguments (arguments : List Bytes)
  | schema (s : Schema)
  | options (o : ParsedOptions)
  | status (status : Status)
  | okay (value : Value)
  | failure (chain : ErrorChain)
  deriving DecidableEq, Repr

/-- Why a statement is the last that runs. -/
inductive Stop where
  | returned (value : Value)
  /-- The source has no meaning here. -/
  | meaningless
  deriving DecidableEq, Repr

/-- An activity of a generated source. -/
abbrev Running := ExceptT Stop (StateM Sink)

/-- The locals by their names, the latest first. -/
abbrev Locals := List (String × Value)

namespace Value

/-- Whether a value is of the named type. -/
def hasType : String → Value → Bool
  | "f64", number _ => true
  | _, _ => false

/-- The outcome of an operation that can fail. -/
def ofExcept {α : Type} (value : α → Value) : Except DriverError α → Value
  | .ok x => okay (value x)
  | .error error => failure error.chain

end Value

namespace Running

/-- Goes on with the value of a text that may have no meaning. -/
def require {α : Type} : Option α → Running α
  | some x => pure x
  | none => throw .meaningless

/-- Writes, and yields whether that failed. -/
def ofWriting (w : Writing Unit) : Running Value := fun s =>
  match w s with
  | (.ok (), s) => (.ok (.okay .unit), s)
  | (.error fault, s) => (.ok (.failure [fault.message]), s)

/-- Yields the value of an attempt; a failure is returned. -/
def attempt : Value → Running Value
  | .okay value => pure value
  | .failure chain => throw (.returned (.failure chain))
  | _ => throw .meaningless

/-- The value of a function, whether it is returned or comes at the end. -/
def function (run : Running Value) : Running Value := fun s =>
  match run s with
  | (.error (.returned value), s) => (.ok value, s)
  | result => result

end Running

/-- What a source is run with: its arguments, the program name first, and its functions that
take no arguments. -/
structure World where
  arguments : List Bytes
  functions : String → Option (Running Value)

/-- The value of a path that is not called. -/
def pathValue (locals : Locals) : List String → Option Value
  | [name] => locals.lookup name
  | ["Status", "Success"] => some (.status .success)
  | ["Status", "UsageError"] => some (.status .usageError)
  | ["Status", "RuntimeError"] => some (.status .runtimeError)
  | _ => none

/-- Calls what a name that is no local stands for. -/
def callName (world : World) : String → List Value → Running Value
  | "Ok", [value] => pure (.okay value)
  | name, [] => do (← .require (world.functions name))
  | _, _ => throw .meaningless

/-- Calls what a path names. A local hides everything of its name. -/
def callPath (world : World) (locals : Locals) : List String → List Value → Running Value
  | [name], values =>
      match locals.lookup name with
      | none => callName world name values
      | some _ => throw .meaningless
  | ["std", "env", "args_os"], [] => pure (.arguments world.arguments)
  | ["OptionSchema", "new"], [.text program] => pure (.schema (.base program))
  | ["report", "usage"], [.out, .schema s] => .ofWriting (Report.usage s)
  | ["report", "missing_output_dir"], [.out, .schema s] => .ofWriting (Report.missingOutputDir s)
  | ["report", "missing_parameter"], [.out, .schema s, .text name] =>
      .ofWriting (Report.missingParameter s name)
  | ["report", "output_dir"], [.out, .text dir] => .ofWriting (Report.outputDir dir)
  | ["report", "parameter"], [.out, .text name, .number x] => .ofWriting (Report.parameter name x)
  | _, _ => throw .meaningless

/-- The value of a method. -/
def callMethod : Value → String → List Value → Option Value
  | .schema s, "parameter", [.text name] => some (.schema (s.parameter name))
  | .schema s, "parse", [.arguments arguments] => some (.ofExcept .options (s.parse arguments))
  | .options o, "help", [] => some (.truth o.help)
  | .options o, "is_present", [.text name] => some (.truth (o.isPresent name))
  | .options o, "string", [.text name] => some (.ofExcept .text (o.string name))
  | .options o, "double", [.text name] => some (.ofExcept .number (o.double name))
  | _, _, _ => none

/-- The opposite of a truth value. -/
def negate : Value → Option Value
  | .truth b => some (.truth !b)
  | _ => none

/-- Runs an expression. -/
@[simp] def Expr.run (world : World) (locals : Locals) : Expr → Running Value
  | .text content => pure (.text content)
  | .path names => .require (pathValue locals names)
  | .call names arguments => do callPath world locals names (← runAll arguments)
  | .method receiver name arguments => do
      let value ← receiver.run world locals
      .require (callMethod value name (← runAll arguments))
  | .borrow value => value.run world locals
  | .not value => do .require (negate (← value.run world locals))
  | .attempt value => do .attempt (← value.run world locals)
where
  runAll : List Expr → Running (List Value)
    | [] => pure []
    | e :: rest => do
        let value ← e.run world locals
        let values ← runAll rest
        pure (value :: values)

mutual

/-- Runs a statement and yields the locals for what follows. -/
@[simp] def Statement.run (world : World) (locals : Locals) : Statement → Running Locals
  | .bind name type e => do
      let value ← e.run world locals
      if type.all (value.hasType ·) then pure ((name, value) :: locals) else throw .meaningless
  | .when condition body => do
      match ← condition.run world locals with
      | .truth true => do
          let _ ← runStatements world locals body
          pure locals
      | .truth false => pure locals
      | _ => throw .meaningless
  | .leave e => do throw (.returned (← e.run world locals))
  | .perform e => do
      let _ ← e.run world locals
      pure locals
  | .result _ => throw .meaningless

/-- Runs statements in order. A result has its place at the end. -/
@[simp] def runStatements (world : World) (locals : Locals) : List Statement → Running Value
  | [] => pure .unit
  | [.result e] => e.run world locals
  | statement :: rest => do runStatements world (← statement.run world locals) rest

end

namespace Code

/-- What the function that does the work is run with. -/
def world (code : Code) (arguments : List Bytes) : World where
  arguments := arguments
  functions name :=
    if name = "schema" then
      some (.function (runStatements ⟨arguments, fun _ => none⟩ [] code.schema))
    else none

/-- How work ends by the value of its function. A source without a meaning has no result. -/
def ending : Except Stop Value → Ending
  | .ok (.okay (.status status)) => .finished status
  | .ok (.failure chain) => .failed chain
  | _ => .panicked

/-- The function that does the work, as work for a runtime. -/
def body (code : Code) (arguments : List Bytes) : Body := fun sink =>
  let (result, sink) :=
    Running.function (runStatements (code.world arguments) [("out", .out)] code.drive) sink
  (ending result, sink)

end Code

end PointDriver.Emitted

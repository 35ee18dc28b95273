import PointDriver.Proofs.Emitted.Token

/-!
# Expressions and statements of a generated source

A generated source has a function that makes the schema and a function that does
the work. The statements of each are read from the lines between its first line
and the closing brace.
-/

namespace PointDriver.Emitted

/-- An expression. -/
inductive Expr where
  | text (content : String)
  /-- A local, or a constant by its path. -/
  | path (path : List String)
  | call (path : List String) (arguments : List Expr)
  | method (receiver : Expr) (name : String) (arguments : List Expr)
  | borrow (value : Expr)
  | not (value : Expr)
  /-- A value that may be a failure, which the function then returns. -/
  | attempt (value : Expr)
  deriving Inhabited

/-- A statement. -/
inductive Statement where
  /-- Gives a local its value, perhaps of a stated type. -/
  | bind (name : String) (type : Option String) (value : Expr)
  | when (condition : Expr) (body : List Statement)
  /-- Returns a value. -/
  | leave (value : Expr)
  | perform (value : Expr)
  /-- The value of the function at its end. -/
  | result (value : Expr)
  deriving Inhabited

/-- The words of a path behind its first word. -/
@[simp] def pathTail : List Token → List String × List Token
  | .mark ':' :: .mark ':' :: .word name :: rest =>
      let (path, rest) := pathTail rest
      (name :: path, rest)
  | rest => ([], rest)

mutual

/-- Reads an expression off the front. -/
@[simp] def expression? : Nat → List Token → Option (Expr × List Token)
  | 0, _ => none
  | fuel + 1, .mark '!' :: rest => do
      let (value, rest) ← expression? fuel rest
      pure (.not value, rest)
  | fuel + 1, .mark '&' :: rest => do
      let (value, rest) ← expression? fuel rest
      pure (.borrow value, rest)
  | fuel + 1, .text content :: rest => postfix? fuel (.text content) rest
  | fuel + 1, .word name :: rest =>
      let (path, rest) := pathTail rest
      match rest with
      | .mark '(' :: rest => do
          let (arguments, rest) ← arguments? fuel rest
          postfix? fuel (.call (name :: path) arguments) rest
      | rest => postfix? fuel (.path (name :: path)) rest
  | _ + 1, _ => none

/-- Reads what is applied to an expression behind it. -/
@[simp] def postfix? : Nat → Expr → List Token → Option (Expr × List Token)
  | 0, _, _ => none
  | fuel + 1, value, .mark '?' :: rest => postfix? fuel (.attempt value) rest
  | fuel + 1, value, .mark '.' :: .word name :: .mark '(' :: rest => do
      let (arguments, rest) ← arguments? fuel rest
      postfix? fuel (.method value name arguments) rest
  | _ + 1, value, rest => some (value, rest)

/-- Reads arguments with the parenthesis that closes them. -/
@[simp] def arguments? : Nat → List Token → Option (List Expr × List Token)
  | 0, _ => none
  | _ + 1, .mark ')' :: rest => some ([], rest)
  | fuel + 1, tokens => do
      let (value, rest) ← expression? fuel tokens
      match rest with
      | .mark ')' :: rest => pure ([value], rest)
      | .mark ',' :: rest => do
          let (values, rest) ← arguments? fuel rest
          pure (value :: values, rest)
      | _ => none

end

/-- Reads an expression and the mark behind it. -/
@[simp] def expressionBefore? (c : Char) (tokens : List Token) : Option (Expr × List Token) := do
  let (value, rest) ← expression? tokens.length tokens
  match rest with
  | .mark d :: rest => if d == c then pure (value, rest) else none
  | _ => none

/-- Reads statements up to a closing brace, which stays in front, or to the end. -/
@[simp] def statements? : Nat → List Token → Option (List Statement × List Token)
  | 0, _ => none
  | _ + 1, [] => some ([], [])
  | _ + 1, .mark '\x7d' :: rest => some ([], .mark '\x7d' :: rest)
  | fuel + 1, .word "let" :: .word name :: .mark '=' :: rest => do
      let (value, rest) ← expressionBefore? ';' rest
      let (more, rest) ← statements? fuel rest
      pure (.bind name none value :: more, rest)
  | fuel + 1, .word "let" :: .word name :: .mark ':' :: .word type :: .mark '=' :: rest => do
      let (value, rest) ← expressionBefore? ';' rest
      let (more, rest) ← statements? fuel rest
      pure (.bind name (some type) value :: more, rest)
  | fuel + 1, .word "if" :: rest => do
      let (condition, rest) ← expressionBefore? '\x7b' rest
      let (body, rest) ← statements? fuel rest
      match rest with
      | .mark '\x7d' :: rest => do
          let (more, rest) ← statements? fuel rest
          pure (.when condition body :: more, rest)
      | _ => none
  | fuel + 1, .word "return" :: rest => do
      let (value, rest) ← expressionBefore? ';' rest
      let (more, rest) ← statements? fuel rest
      pure (.leave value :: more, rest)
  | fuel + 1, tokens => do
      let (value, rest) ← expression? tokens.length tokens
      match rest with
      | .mark ';' :: rest => do
          let (more, rest) ← statements? fuel rest
          pure (.perform value :: more, rest)
      | rest => pure ([.result value], rest)

/-- The lines of a source. -/
def linesOf (source : String) : List String :=
  (source.toList.splitOn '\n').map String.ofList

/-- The lines of a function behind its first line. A function ends at the first line that is
a closing brace and nothing else. -/
def functionLines? (header : String) (lines : List String) : Option (List String) :=
  match lines.dropWhile (· != header) with
  | [] => none
  | _ :: rest => some (rest.takeWhile (· != "\x7d"))

/-- The statements of a function. -/
def function? (header : String) (lines : List String) : Option (List Statement) := do
  let body ← functionLines? header lines
  let tokens ← linesTokens? body
  let (statements, rest) ← statements? (tokens.length + 1) tokens
  if rest.isEmpty then pure statements else none

/-- A generated source: how it makes the schema, and how it does the work. -/
structure Code where
  schema : List Statement
  drive : List Statement

/-- Reads a generated source. -/
def Code.read? (source : String) : Option Code := do
  let schema ← function? "fn schema() -> OptionSchema \x7b" (linesOf source)
  let drive ← function? "fn drive(out: &mut dyn Write) -> Result<Status> \x7b" (linesOf source)
  pure ⟨schema, drive⟩

end PointDriver.Emitted

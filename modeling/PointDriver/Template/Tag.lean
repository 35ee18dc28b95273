import PointDriver.Template.Basic
import PointDriver.Json.Reader

/-! # Tags

What stands between double braces. Each reader takes characters off the front
and returns what it read together with the characters behind it. -/

namespace PointDriver.Template

/-- Blanks inside a tag. -/
def skipBlanks (cs : List Char) : List Char :=
  cs.dropWhile fun c => c == ' ' || c == '\t' || c == '\n' || c == '\r'

/-- The characters of names. -/
def isSymbol (c : Char) : Bool :=
  c.isAlphanum || c == '_' || c == '$' || c == '-' || 0x80 ≤ c.toNat

/-- What follows a fixed beginning. -/
def after? (start : String) (cs : List Char) : Option (List Char) :=
  if start.toList.isPrefixOf cs then some (cs.drop start.length) else none

/-- A name. -/
def identifier? (cs : List Char) : Option (String × List Char) :=
  let name := cs.takeWhile isSymbol
  if name.isEmpty then none else some (String.ofList name, cs.dropWhile isSymbol)

/-- A word that no longer name starts with. -/
def keyword? (word : String) (cs : List Char) : Option (List Char) :=
  (after? word cs).filter fun rest => !rest.head?.any isSymbol

/-- A point or a slash between keys. -/
def separator? : List Char → Option (List Char)
  | c :: rest => if c == '.' || c == '/' then some rest else none
  | [] => none

/-- A key: a name, or any text between square brackets. -/
def key? (cs : List Char) : Option (String × List Char) :=
  match cs with
  | '[' :: rest =>
      match rest.dropWhile (· != ']') with
      | _ :: behind => some (String.ofList (rest.takeWhile (· != ']')), behind)
      | [] => none
  | _ => identifier? cs

/-- Keys after the first, each behind a separator. -/
def moreKeys : Nat → List Char → List String × List Char
  | 0, cs => ([], cs)
  | fuel + 1, cs =>
      match (separator? cs).bind key? with
      | none => ([], cs)
      | some (key, rest) =>
          let (keys, rest) := moreKeys fuel rest
          (key :: keys, rest)

/-- Steps to surrounding frames. -/
def steps : Nat → List Char → Nat × List Char
  | 0, cs => (0, cs)
  | fuel + 1, cs =>
      match (after? ".." cs).bind separator? with
      | none => (0, cs)
      | some rest =>
          let (n, rest) := steps fuel rest
          (n + 1, rest)

/-- A reference. The word for the current value adds no key. -/
def reference? (cs : List Char) : Option (Reference × List Char) := do
  let cs := (((after? "this" cs).bind separator?).orElse fun _ => after? "./" cs).getD cs
  let (origin, cs) : Origin × List Char :=
    match (after? "@root" cs).bind separator?, after? "@" cs with
    | some rest, _ => (.context, rest)
    | none, some rest => (.variable, rest)
    | none, none => (.frame, cs)
  let (ups, cs) := steps cs.length cs
  let (key, cs) ← key? cs
  let (keys, cs) := moreKeys cs.length cs
  pure (⟨origin, ups, (key :: keys).filter (· != "this")⟩, cs)

/-- A text between single quotes. -/
def singleQuoted? : List Char → Option (List Char × List Char)
  | [] => none
  | '\'' :: rest => some ([], rest)
  | '\\' :: '\'' :: rest => (singleQuoted? rest).map fun (text, rest) => ('\'' :: text, rest)
  | c :: rest => (singleQuoted? rest).map fun (text, rest) => (c :: text, rest)

/-- The digits of a number with its sign, point and exponent. -/
def numeral (cs : List Char) : List Char × List Char :=
  let (sign, cs) : List Char × List Char := match cs with
    | '-' :: rest => (['-'], rest)
    | rest => ([], rest)
  let whole := cs.takeWhile Char.isDigit
  let cs := cs.dropWhile Char.isDigit
  let (point, cs) : List Char × List Char := match cs with
    | '.' :: rest => ('.' :: rest.takeWhile Char.isDigit, rest.dropWhile Char.isDigit)
    | rest => ([], rest)
  let exponent : List Char × List Char := match cs with
    | 'E' :: rest =>
        let (sign, digits) : List Char × List Char := match rest with
          | '-' :: digits => (['-'], digits)
          | digits => ([], digits)
        if (digits.takeWhile Char.isDigit).isEmpty then ([], cs)
        else ('E' :: sign ++ digits.takeWhile Char.isDigit, digits.dropWhile Char.isDigit)
    | _ => ([], cs)
  if whole.isEmpty then ([], cs) else (sign ++ whole ++ point ++ exponent.1, exponent.2)

/-- A number that no name starts with. -/
def number? (cs : List Char) : Option (Json × List Char) :=
  let (shown, rest) := numeral cs
  if shown.isEmpty || rest.head?.any isSymbol || shown.getLast? == some '.' then none
  else (Json.number? shown).map fun (value, _) => (value, rest)

/-- A value that is written out. -/
def literal? (cs : List Char) : Option (Json × List Char) :=
  match cs with
  | '"' :: rest => (Json.string? rest).map fun (text, rest) => (.text text, rest)
  | '\'' :: rest => (singleQuoted? rest).map fun (text, rest) => (.text (String.ofList text), rest)
  | '[' :: _ | '\x7b' :: _ => Json.value? (2 * cs.length + 2) cs
  | _ =>
      match keyword? "null" cs, keyword? "true" cs, keyword? "false" cs with
      | some rest, _, _ => some (.null, rest)
      | _, some rest, _ => some (.boolean true, rest)
      | _, _, some rest => some (.boolean false, rest)
      | none, none, none => number? cs

/-- Whether the next word has a meaning of its own in a tag. -/
def atKeyword (cs : List Char) : Bool := (keyword? "as" cs).isSome || (keyword? "else" cs).isSome

mutual

/-- An argument: a literal, else a reference, else a call in parentheses. -/
def argument? : Nat → List Char → Option (Argument × List Char)
  | 0, _ => none
  | fuel + 1, cs =>
      if atKeyword cs then none
      else
        match literal? cs, reference? cs with
        | some (value, rest), _ => some (.literal value, rest)
        | none, some (reference, rest) => some (.reference reference, rest)
        | none, none => call? fuel cs

/-- A call in parentheses. -/
def call? : Nat → List Char → Option (Argument × List Char)
  | 0, _ => none
  | fuel + 1, cs => do
      let cs ← after? "(" cs
      let (name, cs) ← identifier? (skipBlanks cs)
      let (arguments, options, cs) := arguments fuel cs
      let cs ← after? ")" (skipBlanks cs)
      pure (.call name arguments options, cs)

/-- All the arguments and options that follow. -/
def arguments : Nat → List Char → List Argument × List (String × Argument) × List Char
  | 0, cs => ([], [], cs)
  | fuel + 1, cs =>
      match option? fuel (skipBlanks cs) with
      | some (name, value, rest) =>
          let (values, options, rest) := arguments fuel rest
          (values, (name, value) :: options, rest)
      | none =>
          match argument? fuel (skipBlanks cs) with
          | some (value, rest) =>
              let (values, options, rest) := arguments fuel rest
              (value :: values, options, rest)
          | none => ([], [], cs)

/-- An option: a name, an equals sign and an argument. -/
def option? : Nat → List Char → Option (String × Argument × List Char)
  | 0, _ => none
  | fuel + 1, cs => do
      let (name, cs) ← identifier? cs
      let cs ← after? "=" (skipBlanks cs)
      let (value, cs) ← argument? fuel (skipBlanks cs)
      pure (name, value, cs)

end

/-- The names that a block gives to its values. -/
def blockNames? (cs : List Char) : Option (List String × List Char) := do
  let cs ← after? "as" (skipBlanks cs)
  let cs ← after? "|" (skipBlanks cs)
  let (first, cs) ← identifier? (skipBlanks cs)
  match identifier? (skipBlanks cs) with
  | some (second, cs) => pure ([first, second], ← after? "|" (skipBlanks cs))
  | none => pure ([first], ← after? "|" (skipBlanks cs))

/-- The head of a block. -/
def opening? (cs : List Char) : Option (Opening × List Char) := do
  let (name, cs) ← identifier? (skipBlanks cs)
  let (values, options, cs) := arguments (2 * cs.length + 2) cs
  match blockNames? cs with
  | some (names, cs) => pure (⟨name, values, options, names⟩, cs)
  | none => pure (⟨name, values, options, []⟩, cs)

/-- What a tag prints: a helper with arguments, else a reference or a call. A
name alone that belongs to a helper is a call without arguments. -/
def printed? (cs : List Char) : Option (Argument × List Char) :=
  let cs := skipBlanks cs
  let helper := (identifier? cs).bind fun (name, rest) =>
    let (values, options, rest) := arguments (2 * rest.length + 2) rest
    if values.isEmpty && options.isEmpty then none
    else some (Argument.call name values options, rest)
  match helper, reference? cs with
  | some (value, rest), _ => some (value, rest)
  | none, some (reference, rest) =>
      let name := String.ofList (cs.take (cs.length - rest.length))
      if helperNames.contains name then some (.call name [] [], rest)
      else some (.reference reference, rest)
  | none, none => call? (2 * cs.length + 2) cs

/-- A tag. -/
inductive Tag where
  | output (value : Argument)
  | opening (opening : Opening)
  | closing (name : String)
  /-- What follows is printed otherwise, perhaps under a further condition. -/
  | otherwise (condition : Option Opening)
  | comment
  | inclusion
  deriving Inhabited

/-- A tag with its tildes, which remove the blanks before and after it. -/
structure Marked where
  tag : Tag
  trimsBefore : Bool
  trimsAfter : Bool
  deriving Inhabited

/-- An optional tilde. -/
def tilde (cs : List Char) : Bool × List Char :=
  match skipBlanks cs with
  | '~' :: rest => (true, rest)
  | _ => (false, cs)

/-- The end of a tag, with a tilde perhaps. -/
def close? (braces : String) (cs : List Char) : Option (Bool × List Char) := do
  let (trims, cs) := tilde cs
  pure (trims, ← after? braces (skipBlanks cs))

/-- What follows the first place where a text occurs. -/
def behind? (text : String) : List Char → Option (List Char)
  | [] => none
  | c :: rest => if text.toList.isPrefixOf (c :: rest) then some ((c :: rest).drop text.length)
      else behind? text rest

/-- A comment behind its exclamation mark. One that starts with two dashes ends
with two dashes, if they come. -/
def comment? (cs : List Char) : Option (List Char) :=
  match ((after? "--" (skipBlanks cs)).bind fun rest => behind? "--\x7d\x7d" rest) with
  | some rest => some rest
  | none => behind? "\x7d\x7d" cs

/-- The name of another template, with arguments for it. -/
def inclusion? (cs : List Char) : Option (List Char) :=
  let cs := skipBlanks cs
  let isNameChar (c : Char) : Bool := isSymbol c || c == '/' || c == '.'
  let rest? :=
    if (cs.takeWhile isNameChar).isEmpty then (printed? cs).map (·.2)
    else some (cs.dropWhile isNameChar)
  rest?.map fun rest => (arguments (2 * rest.length + 2) rest).2.2

/-- Reads a tag behind its two opening braces. -/
def tag? (cs : List Char) : Option (Marked × List Char) :=
  match cs with
  | '!' :: rest => (comment? rest).map fun rest => (⟨.comment, false, false⟩, rest)
  | '\x7b' :: rest => do
      let (before, rest) := tilde rest
      let (value, rest) ← printed? rest
      let (trimsAfter, rest) ← close? "\x7d\x7d\x7d" rest
      pure (⟨.output value, before, trimsAfter⟩, rest)
  | _ =>
      let (before, cs) := tilde cs
      let cs := skipBlanks cs
      let finish (tag : Tag) (cs : List Char) : Option (Marked × List Char) :=
        (close? "\x7d\x7d" cs).map fun (trimsAfter, rest) => (⟨tag, before, trimsAfter⟩, rest)
      match cs with
      | '\x7b' :: rest => do
          let (value, rest) ← printed? rest
          finish (.output value) (← after? "\x7d" (skipBlanks rest))
      | '&' :: rest => do
          let (reference, rest) ← reference? (skipBlanks rest)
          finish (.output (.reference reference)) rest
      | '#' :: rest => do
          let (opening, rest) ← opening? rest
          finish (.opening opening) rest
      | '/' :: rest => do
          let (name, rest) ← identifier? (skipBlanks rest)
          finish (.closing name) rest
      | '>' :: rest => do finish .inclusion (← inclusion? rest)
      | _ =>
          match (after? "^" cs).orElse fun _ => keyword? "else" cs with
          | some rest =>
              match finish (.otherwise none) rest with
              | some result => some result
              | none => do
                  let (condition, rest) ← opening? rest
                  finish (.otherwise (some condition)) rest
          | none => do
              let (value, rest) ← printed? cs
              finish (.output value) rest

end PointDriver.Template

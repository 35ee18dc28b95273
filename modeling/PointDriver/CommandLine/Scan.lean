import PointDriver.CommandLine.Basic

/-! # Reading arguments from left to right

At most one option is pending: it was named in an argument of its own, and the
next argument may be its value. A pending option is settled, which means
checked and recorded, when the next option comes or the arguments end. -/

namespace PointDriver.CommandLine

/-- An option that was given, with its value if it has one. -/
structure Occurrence where
  option : Spec
  value : Option Bytes
  deriving DecidableEq, Repr

/-- What has been read so far. -/
structure Reading where
  recorded : List Occurrence
  pending : Option Occurrence
  deriving DecidableEq, Repr

namespace Reading

/-- Before the first argument. -/
def start : Reading := ⟨[], none⟩

/-- Whether an option with the name is recorded. -/
def has (r : Reading) (name : String) : Bool :=
  r.recorded.any fun o => o.option.name == name

/-- The values recorded for a name, in order. -/
def values (r : Reading) (name : String) : List Bytes :=
  (r.recorded.filter fun o => o.option.name == name).filterMap (·.value)

/-- The option that waits for its value. -/
def waiting? (r : Reading) : Option Occurrence :=
  r.pending.filter fun o => o.value.isNone

/-- Whether an operand is still to come. -/
def lacks (r : Reading) (operand : Spec) : Bool :=
  !r.has operand.name && !r.pending.any fun o => o.option.name == operand.name

/-- How the option takes values, if it does. -/
def valueOf (s : Spec) : Option Value :=
  match s.role with
  | .value v | .operand v => some v
  | .flag | .page _ => none

/-- What is wrong with the bytes of a value. -/
def contentFault? (s : Spec) (bytes : Bytes) : Option Fault :=
  match (valueOf s).map Value.content with
  | some .path => if bytes.isEmpty then some (.missingValue s) else none
  | _ => if (Utf8.decode? bytes).isNone then some .brokenText else none

/-- Whether the option may be recorded once more. -/
def mayRepeat (s : Spec) : Bool := ((valueOf s).map Value.repeats).getD false

/-- Checks an option with its value and records it. -/
def record (r : Reading) (o : Occurrence) : Except Fault Reading :=
  match o.value with
  | none => .error (.missingValue o.option)
  | some bytes =>
      if r.has o.option.name && !mayRepeat o.option then .error (.repeatedOption o.option)
      else
        match contentFault? o.option bytes with
        | some fault => .error fault
        | none => .ok { r with recorded := r.recorded ++ [o] }

/-- Checks the pending option and records it. -/
def settle (r : Reading) : Except Fault Reading :=
  match r.pending with
  | none => .ok r
  | some o => record { r with pending := none } o

/-- The options recorded when the pending one is settled for a report about
another argument. An option without its value is left out, and a repeated one
is struck from the list. -/
def settledOptions (r : Reading) : List Spec :=
  let before := r.recorded.map (·.option)
  match r.pending with
  | none => before
  | some o =>
      if o.value.isNone then before
      else if r.has o.option.name && !mayRepeat o.option then
        before.filter fun s => s.name != o.option.name
      else before ++ [o.option]

/-- Takes an option that was named, with the value attached to it if there is
one. A flag is recorded at once, and so is an option with its value. -/
def give (r : Reading) (s : Spec) (attached : Option Bytes) : Except Fault Reading :=
  match valueOf s, attached with
  | some _, some bytes => do
      let r ← r.settle
      record r ⟨s, some bytes⟩
  | some _, none => do
      let r ← r.settle
      pure { r with pending := some ⟨s, none⟩ }
  | none, some bytes =>
      .error (.surplusValue (Utf8.lossy bytes) s (r.recorded.map (·.option)))
  | none, none => do
      let r ← r.settle
      match s.role with
      | .page page => .error (.page page)
      | _ =>
          if r.has s.name then .error (.repeatedOption s)
          else pure { r with recorded := r.recorded ++ [⟨s, none⟩] }

/-- Takes an option by its name. -/
def giveNamed (table : List Spec) (r : Reading) (name : Bytes) (attached : Option Bytes) :
    Except Fault Reading :=
  match (Utf8.decode? name).bind (named? table) with
  | some s => r.give s attached
  | none =>
      let shown := Utf8.lossy name
      let similar := (Similarity.closest? shown (table.map (·.name))).bind (named? table)
      .error (.unknownOption shown similar r.settledOptions)

/-- Takes letters one by one. The letter of an option with a value takes all
that follows, without an equals sign in front. The last argument holds bytes
at the end that are no characters. -/
def giveLetters (table : List Spec) (r : Reading) : List Char → Bytes → Except Fault Reading
  | [], [] => .ok r
  | [], b :: rest => .error (.unknownArgument ("-" ++ Utf8.lossy (b :: rest)))
  | c :: cs, broken =>
      match lettered? table c with
      | none => .error (.unknownArgument ("-" ++ c.toString))
      | some s =>
          match valueOf s with
          | some _ =>
              match Utf8.encodeChars cs ++ broken with
              | [] => r.give s none
              | b :: rest => r.give s (some (if b == equals then rest else b :: rest))
          | none => do
              let r ← r.give s none
              giveLetters table r cs broken

end Reading

/-- Where a reading stopped. -/
inductive Stop where
  /-- At the end. -/
  | finished
  /-- At a word that nothing takes. -/
  | word (text : Bytes) (rest : List Bytes)
  /-- Behind two dashes alone. -/
  | escaped (rest : List Bytes)
  deriving DecidableEq, Repr

/-- Whether the waiting option takes the letters as a negative number. -/
def takesNumber (r : Reading) (letters : Bytes) : Bool :=
  match r.waiting? with
  | none => false
  | some o =>
      ((Reading.valueOf o.option).map Value.numeric).getD false &&
        ((Utf8.decode? letters).map fun s => isNumberLike s.toList).getD false

/-- Reads arguments while the table has a place for them. A word goes to the
waiting option, else to the operand if it is still to come. -/
def scan (table : List Spec) (operand : Option Spec) :
    Reading → List Bytes → Except Fault (Reading × Stop)
  | r, [] => .ok (r, .finished)
  | r, a :: rest =>
      match Word.ofBytes a with
      | .escape => .ok (r, .escaped rest)
      | .long name attached => do
          let r ← r.giveNamed table name attached
          scan table operand r rest
      | .letters letters =>
          if takesNumber r letters then
            scan table operand
              { r with pending := r.pending.map fun o => { o with value := some a } } rest
          else do
            let (cs, broken) := Utf8.scan 0 letters
            let r ← r.giveLetters table cs broken
            scan table operand r rest
      | .plain =>
          match r.waiting?, operand with
          | some o, _ =>
              scan table operand { r with pending := some { o with value := some a } } rest
          | none, some s =>
              if r.lacks s then do
                let r ← r.settle
                scan table operand { r with pending := some ⟨s, some a⟩ } rest
              else .ok (r, .word a rest)
          | none, none => .ok (r, .word a rest)

/-- Reads arguments that must all be options with their values. -/
def scanOptions (table : List Spec) (arguments : List Bytes) : Except Fault Reading := do
  match ← scan table none .start arguments with
  | (r, .finished) | (r, .escaped []) => r.settle
  | (_, .word text _) | (_, .escaped (text :: _)) => .error (.unknownArgument (Utf8.lossy text))

end PointDriver.CommandLine

import PointDriver.Template.Reader
import PointDriver.Double.Shortest

/-! # Rendering templates

The text of a template for a context. Nothing is escaped. A value that is not
there is an error wherever it would be printed, so a finished text has no gaps. -/

namespace PointDriver.Template

/-- What references are resolved in: the current value, the variables of a loop,
and the names that a block has given. -/
structure Frame where
  value : Json
  loop : List (String × Json)
  names : List (String × Json)
  deriving Inhabited

/-- The frames around a place, the innermost first. The last holds the context. -/
abbrev Frames := List Frame

/-- The number that a key of a list spells. -/
def index? (key : String) : Option Nat :=
  let digits := match key.toList with
    | '+' :: rest => rest
    | rest => rest
  if digits.isEmpty || !digits.all Char.isDigit then none else some (Literal.digitsValue digits)

/-- The value that keys lead to. Nothing is there behind a key that is missing;
a list with a key that is no number is an error. -/
def navigate : Json → List String → Option (Option Json)
  | value, [] => some (some value)
  | .array items, key :: keys =>
      match index? key with
      | none => none
      | some i =>
          match items[i]? with
          | some item => navigate item keys
          | none => some none
  | .object members, key :: keys =>
      match members.lookup key with
      | some value => navigate value keys
      | none => some none
  | _, _ :: _ => some none

/-- The value of a reference, if it is there. -/
def Reference.resolve (r : Reference) (frames : Frames) : Option (Option Json) :=
  match r.origin with
  | .variable =>
      some ((frames[r.ups]?).bind fun frame =>
        (r.keys.head?).bind fun key => frame.loop.lookup key)
  | .context =>
      match frames.getLast? with
      | some frame => navigate frame.value r.keys
      | none => some none
  | .frame =>
      let named := match r.keys with
        | key :: rest =>
            (frames.findSome? fun frame => frame.names.lookup key).map fun value => (value, rest)
        | [] => none
      match named, (frames[r.ups]?).orElse fun _ => frames.head? with
      | some (value, keys), _ => navigate value keys
      | none, some frame => navigate frame.value r.keys
      | none, none => some none

/-- Whether a value counts as true. Zero does where `zero` says so. -/
def isTrue (zero : Bool) : Json → Bool
  | .null => false
  | .boolean b => b
  | .integer n => zero || n != 0
  | .real x => !x.isNaN && (zero || (Double.binade ≤ x.rank && !x.isInfinite))
  | .text s => !s.isEmpty
  | .array items => !items.isEmpty
  | .object members => !members.isEmpty

/-- The text of a value. -/
def shown : Json → List Char
  | .null => []
  | .boolean b => (if b then "true" else "false").toList
  | .integer n => (toString n).toList
  | .real x => x.shortestText.toList
  | .text s => s.toList
  | .array [] => ['[', ']']
  | .array (item :: items) => '[' :: (shown item ++ shownRest items ++ [']'])
  | .object _ => "[object]".toList
where
  shownRest : List Json → List Char
    | [] => []
    | item :: items => ',' :: ' ' :: (shown item ++ shownRest items)

/-- Whether two values are the same. -/
def same : Json → Json → Bool
  | .null, .null => true
  | .boolean a, .boolean b => a == b
  | .integer a, .integer b => a == b
  | .real a, .real b => a == b && !a.isNaN
  | .text a, .text b => a == b
  | .array a, .array b => sameItems a b
  | .object a, .object b => sameMembers a b
  | _, _ => false
where
  sameItems : List Json → List Json → Bool
    | [], [] => true
    | a :: as, b :: bs => same a b && sameItems as bs
    | _, _ => false
  sameMembers : List (String × Json) → List (String × Json) → Bool
    | [], [] => true
    | (k, a) :: as, (l, b) :: bs => k == l && same a b && sameMembers as bs
    | _, _ => false

/-- A finite number as a quotient: its numerator in smallest magnitudes. -/
def magnitude? : Json → Option Int
  | .integer n => some (n * Double.one)
  | .real x =>
      if x.isNaN || x.isInfinite then none
      else some (if x.negative then -(Double.multiples x.rank : Int) else Double.multiples x.rank)
  | .text s =>
      (Double.read? s.toList).bind fun x =>
        if x.isNaN || x.isInfinite then none
        else some (if x.negative then -(Double.multiples x.rank : Int) else Double.multiples x.rank)
  | _ => none

/-- The order of two values of a kind that has one. -/
def order? : Json → Json → Option Ordering
  | .text a, .text b => some (compare a b)
  | .boolean a, .boolean b => some (compare a b)
  | a, b =>
      match magnitude? a, magnitude? b with
      | some a, some b => some (compare a b)
      | _, _ => none

/-- The two first arguments of a helper that compares. -/
def pair? : List (Option Json) → Option (Json × Json)
  | some a :: some b :: _ => some (a, b)
  | _ => none

/-- A truth value about two arguments. -/
def compared (arguments : List (Option Json)) (holds : Json → Json → Bool) : Option Json :=
  (pair? arguments).map fun (a, b) => .boolean (holds a b)

/-- The value of a helper that yields a truth value. -/
def truth? (name : String) (arguments : List (Option Json)) : Option (Option Json) :=
  let ordered (holds : Ordering → Bool) := compared arguments fun a b => (order? a b).any holds
  match name with
  | "eq" => some (compared arguments same)
  | "ne" => some (compared arguments fun a b => !same a b)
  | "gt" => some (ordered Ordering.isGT)
  | "gte" => some (ordered Ordering.isGE)
  | "lt" => some (ordered Ordering.isLT)
  | "lte" => some (ordered Ordering.isLE)
  | "and" => some (compared arguments fun a b => isTrue false a && isTrue false b)
  | "or" => some (compared arguments fun a b => isTrue false a || isTrue false b)
  | "not" => some ((arguments.head?.bind id).map fun a => .boolean (!isTrue false a))
  | _ => none

/-- An item of a list or a member of an object. -/
def lookup? : List (Option Json) → Option Json
  | some (.array items) :: some (.integer i) :: _ => if i < 0 then none else items[i.toNat]?
  | some (.object members) :: some (.text key) :: _ => members.lookup key
  | _ => none

/-- How many items, members or bytes a value has. -/
def length? : List (Option Json) → Option Json
  | some (.array items) :: _ => some (.integer items.length)
  | some (.object members) :: _ => some (.integer members.length)
  | some (.text s) :: _ => some (.integer s.utf8ByteSize)
  | some _ :: _ => some (.integer 0)
  | _ => none

/-- The value of a helper. A helper that needs a block yields an empty text. -/
def helperValue? (name : String) (arguments : List (Option Json)) : Option Json :=
  match truth? name arguments with
  | some value => value
  | none =>
      if name == "lookup" then lookup? arguments
      else if name == "len" then length? arguments
      else if name == "log" || name == "raw" then some (.text "")
      else if ["if", "unless", "each", "with"].contains name && !arguments.isEmpty then
        some (.text "")
      else none

/-- The values of arguments: for each, the value if it is there. -/
def Argument.value? (frames : Frames) : Argument → Option (Option Json)
  | .literal value => some (some value)
  | .reference r => r.resolve frames
  | .call name arguments options => do
      let values ← valuesOf frames arguments
      let _ ← optionValuesOf frames options
      let value ← helperValue? name values
      pure (some value)
where
  valuesOf (frames : Frames) : List Argument → Option (List (Option Json))
    | [] => some []
    | a :: rest => do
        let value ← Argument.value? frames a
        let values ← valuesOf frames rest
        pure (value :: values)
  optionValuesOf (frames : Frames) : List (String × Argument) →
      Option (List (String × Option Json))
    | [] => some []
    | (name, a) :: rest => do
        let value ← Argument.value? frames a
        let values ← optionValuesOf frames rest
        pure ((name, value) :: values)

/-- What prints the inside of a block. -/
abbrev Printer := Frames → Option (List Char)

/-- Prints what a block prints otherwise; nothing if it does not say. -/
def printOtherwise (frames : Frames) (otherwise : Option Printer) : Option (List Char) :=
  match otherwise with
  | some print => print frames
  | none => some []

/-- The frame for an item of a list of so many. -/
def itemFrame (names : List String) (count i : Nat) (item : Json) : Frame where
  value := item
  loop := [("first", .boolean (i == 0)), ("last", .boolean (i + 1 == count)),
    ("index", .integer i)]
  names := names.zip [item, .integer i]

/-- The frame for a member of an object of so many. -/
def memberFrame (names : List String) (count i : Nat) (key : String) (value : Json) : Frame where
  value := value
  loop := [("first", .boolean (i == 0)), ("last", .boolean (i + 1 == count)),
    ("index", .integer i), ("key", .text key)]
  names := names.zip [value, .text key]

/-- Prints a block once for each frame, inside the frames around it. -/
def printEach (frames : Frames) (body : Printer) : List Frame → Option (List Char)
  | [] => some []
  | frame :: rest => do
      let text ← body (frame :: frames)
      let more ← printEach frames body rest
      pure (text ++ more)

/-- Goes through a list or an object. What cannot be gone through is an error
unless the block says what is printed otherwise. -/
def each (frames : Frames) (names : List String) (value : Option Json) (body : Printer)
    (otherwise : Option Printer) : Option (List Char) :=
  match value with
  | some (.array (item :: items)) =>
      let all := item :: items
      printEach frames body (all.zipIdx.map fun (item, i) => itemFrame names all.length i item)
  | some (.object (first :: members)) =>
      let all := (first :: members).mergeSort fun a b => a.1 ≤ b.1
      printEach frames body
        (all.zipIdx.map fun ((key, value), i) => memberFrame names all.length i key value)
  | some (.array []) | some (.object []) => printOtherwise frames otherwise
  | _ => otherwise.bind fun print => print frames

/-- Prints a block of a helper. -/
def printBlock (frames : Frames) (opening : Opening) (body : Printer)
    (otherwise : Option Printer) : Option (List Char) := do
  let values ← Argument.value?.valuesOf frames opening.arguments
  let options ← Argument.value?.optionValuesOf frames opening.options
  let choose (holds : Bool) : Option (List Char) :=
    if holds then body frames else printOtherwise frames otherwise
  match opening.name, values with
  | "if", value :: _ | "unless", value :: _ =>
      let zero : Bool := match (options.lookup "includeZero").join with
        | some (.boolean b) => b
        | _ => false
      let holds := (value.map (isTrue zero)).getD false
      choose (if opening.name == "if" then holds else !holds)
  | "each", value :: _ => each frames opening.names value body otherwise
  | "with", value :: _ =>
      match value with
      | some item =>
          if isTrue false item then
            body (⟨item, [], opening.names.zip [item]⟩ :: frames)
          else otherwise.bind fun print => print frames
      | none => otherwise.bind fun print => print frames
  | "raw", _ => body frames
  | name, values =>
      match truth? name values with
      | some value => do choose (isTrue false (← value))
      | none => (helperValue? name values).map shown

mutual

/-- The text of an element. -/
def renderElement (frames : Frames) : Element → Option (List Char)
  | .text text => some text
  | .output value => (Argument.value? frames value).join.map shown
  | .block opening body none =>
      printBlock frames opening (fun frames => renderAll frames body) none
  | .block opening body (some inverse) =>
      printBlock frames opening (fun frames => renderAll frames body)
        (some fun frames => renderAll frames inverse)
  | .inclusion => none

/-- The text of elements in order. -/
def renderAll (frames : Frames) : List Element → Option (List Char)
  | [] => some []
  | element :: rest => do
      let text ← renderElement frames element
      let more ← renderAll frames rest
      pure (text ++ more)

end

/-- The text of a template for a context. -/
def render? (source : String) (context : Json) : Option String := do
  let elements ← read? source.toList
  let text ← renderAll [⟨context, [], []⟩] elements
  pure (String.ofList text)

end PointDriver.Template

import PointDriver.Template.Tag
import PointDriver.Text.Blank

/-! # Reading templates

A template is cut into texts and tags, the blanks around tags are dealt with,
and the tags of blocks are matched. A block tag or comment that has a line to
itself takes the whole line away. -/

namespace PointDriver.Template

/-- Whether a tag starts here. -/
def opensTag : List Char → Bool
  | '\x7b' :: '\x7b' :: _ => true
  | _ => false

/-- The text up to the next tag, and what follows. A backslash before braces
makes them text; of several, one goes and the tag stays a tag. -/
def textFrom (counted : Bool) : List Char → List Char × List Char
  | [] => ([], [])
  | c :: rest =>
      if opensTag (c :: rest) then ([], c :: rest)
      else if c == '\\' && !counted then
        match rest with
        | a :: b :: behind =>
            if opensTag (a :: b :: behind) then
              match behind with
              | d :: e :: last =>
                  if opensTag (d :: e :: last) then
                    let (text, rest) := textFrom false last
                    (a :: b :: d :: e :: text, rest)
                  else
                    let (text, rest) := textFrom false (d :: e :: last)
                    (a :: b :: text, rest)
              | last =>
                  let (text, rest) := textFrom false last
                  (a :: b :: text, rest)
            else if a == '\\' && opensTag ((b :: behind).dropWhile (· == '\\')) then
              textFrom true (a :: b :: behind)
            else
              let (text, rest) := textFrom false (a :: b :: behind)
              (c :: text, rest)
        | rest =>
            let (text, rest) := textFrom false rest
            (c :: text, rest)
      else
        let (text, rest) := textFrom (counted && c == '\\') rest
        (c :: text, rest)

/-- The blanks within a line. -/
def isSpace (c : Char) : Bool := c == ' ' || c == '\t'

/-- The characters that end a line. -/
def isLineEnd (c : Char) : Bool := c == '\n' || c == '\r'

/-- Whether only blanks have come since the last line began. -/
def startsLine (before : Bool) (text : List Char) : Bool :=
  text.foldl (fun blank c => if isLineEnd c then true else blank && isSpace c) before

/-- Whether only blanks come before the line or the template ends. A template
ends only directly behind a tag. -/
def endsLine (rest : List Char) : Bool :=
  rest.isEmpty || (rest.dropWhile isSpace).head?.any isLineEnd

/-- Whether a tag can have a line to itself. -/
def Tag.isStructural : Tag → Bool
  | .output _ | .inclusion => false
  | _ => true

/-- A text or a tag, with its surroundings. -/
inductive Piece where
  | text (text : List Char)
  /-- A tag, and whether it has a line to itself. -/
  | tag (tag : Marked) (alone : Bool)
  deriving Inhabited

/-- Cuts a template into pieces. -/
def pieces? : Nat → Bool → List Char → Option (List Piece)
  | 0, _, _ => none
  | fuel + 1, fresh, cs => do
      let (text, rest) := textFrom false cs
      let fresh := startsLine fresh (cs.take (cs.length - rest.length))
      match rest with
      | [] => pure [.text text]
      | _ => do
          let (tag, behind) ← tag? (rest.drop 2)
          let alone := tag.tag.isStructural && fresh && endsLine behind
          let more ← pieces? fuel false behind
          pure (.text text :: .tag tag alone :: more)

/-- A text without the blanks of its first line and the end of that line. -/
def dropLine (text : List Char) : List Char :=
  match text.dropWhile isSpace with
  | '\r' :: '\n' :: rest => rest
  | '\n' :: rest => rest
  | rest => rest

/-- A text without the blanks at its end that belong to the line of a tag. -/
def dropIndent (text : List Char) : List Char := (text.reverse.dropWhile isSpace).reverse

/-- What of a text stays before a tag. -/
def keptBefore (next : List Piece) (text : List Char) : List Char :=
  match next with
  | .tag tag alone :: _ =>
      let text := if tag.trimsBefore then trimEnd text else text
      if alone then dropIndent text else text
  | _ => text

/-- Deals with the blanks around tags. `trims` says whether the last tag that is
no comment takes the blanks behind it, and `alone` whether the tag just before
has a line to itself. -/
def settleBlanks (trims alone : Bool) : List Piece → List Piece
  | [] => []
  | .text text :: rest =>
      let text := if trims then trimStart text else if alone then dropLine text else text
      .text (keptBefore rest text) :: settleBlanks trims false rest
  | .tag tag isAlone :: rest =>
      let trims := match tag.tag with
        | .comment => trims
        | _ => tag.trimsAfter
      .tag tag isAlone :: settleBlanks trims isAlone rest

mutual

/-- Reads elements up to a tag that ends them, which stays in front. -/
def elements? : Nat → List Piece → Option (List Element × List Piece)
  | 0, _ => none
  | _ + 1, [] => some ([], [])
  | fuel + 1, .text text :: rest => do
      let (elements, rest) ← elements? fuel rest
      pure (.text text :: elements, rest)
  | fuel + 1, .tag tag alone :: rest =>
      match tag.tag with
      | .comment => elements? fuel rest
      | .output value => do
          let (elements, rest) ← elements? fuel rest
          pure (.output value :: elements, rest)
      | .inclusion => do
          let (elements, rest) ← elements? fuel rest
          pure (.inclusion :: elements, rest)
      | .opening opening => do
          let (body, rest) ← elements? fuel rest
          let (inverse, rest) ← otherwise? fuel rest
          match rest with
          | .tag ⟨.closing name, _, _⟩ _ :: rest =>
              if name == opening.name then do
                let (elements, rest) ← elements? fuel rest
                pure (.block opening body inverse :: elements, rest)
              else none
          | _ => none
      | .closing _ | .otherwise _ => some ([], .tag tag alone :: rest)

/-- Reads what is printed otherwise. A further condition makes it a block that
ends where the whole block ends. -/
def otherwise? : Nat → List Piece → Option (Option (List Element) × List Piece)
  | 0, _ => none
  | fuel + 1, .tag ⟨.otherwise none, _, _⟩ _ :: rest => do
      let (body, rest) ← elements? fuel rest
      pure (some body, rest)
  | fuel + 1, .tag ⟨.otherwise (some condition), _, _⟩ _ :: rest => do
      let (body, rest) ← elements? fuel rest
      let (inverse, rest) ← otherwise? fuel rest
      pure (some [.block condition body inverse], rest)
  | _ + 1, pieces => some (none, pieces)

end

/-- Reads a template. -/
def read? (source : List Char) : Option (List Element) := do
  let pieces ← pieces? (source.length + 1) true source
  let (elements, rest) ← elements? (2 * pieces.length + 2) (settleBlanks false false pieces)
  if rest.isEmpty then pure elements else none

end PointDriver.Template

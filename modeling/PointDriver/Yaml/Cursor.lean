/-! # Positions in a document

The structure of a document depends on the columns at which things start, so
what is left to read carries the line and the column of its first character. -/

namespace PointDriver.Yaml

/-- What is left to read, with the position of its first character. -/
structure Cursor where
  line : Nat
  column : Nat
  rest : List Char
  deriving DecidableEq, Repr

/-- A blank within a line. -/
def isBlankChar (c : Char) : Bool := c == ' ' || c == '\t'

/-- Whether the next character separates words: a blank, a line break, or
nothing at all. -/
def atSeparator : List Char → Bool
  | [] => true
  | c :: _ => isBlankChar c || c == '\n'

/-- Whether three characters and a separator follow. -/
def atMark (c : Char) : List Char → Bool
  | a :: b :: d :: rest => a == c && b == c && d == c && atSeparator rest
  | _ => false

/-- Three dashes, which start a document. -/
def atDocumentStart (rest : List Char) : Bool := atMark '-' rest

/-- Three points, which end a document. -/
def atDocumentEnd (rest : List Char) : Bool := atMark '.' rest

/-- Either mark at the start of a line. -/
def atDocumentMark (column : Nat) (rest : List Char) : Bool :=
  column == 0 && (atDocumentStart rest || atDocumentEnd rest)

namespace Cursor

/-- Whether the document ends here. -/
def atEnd (c : Cursor) : Bool := c.rest.isEmpty || atDocumentMark c.column c.rest

/-- The cursor behind a number of characters of the same line. -/
def skip (c : Cursor) (n : Nat) : Cursor := ⟨c.line, c.column + n, c.rest.drop n⟩

end Cursor

/-- What is passed over before a token: spaces, comments and line breaks. Tabs
are passed over where they cannot be taken for indentation: inside brackets,
and before the end of a line on which a token has been read. -/
def spaceFrom (inFlow : Bool) (tabs comment : Bool) (line column : Nat) : List Char → Cursor
  | [] => ⟨line, column, []⟩
  | c :: rest =>
      if c == '\n' then spaceFrom inFlow inFlow false (line + 1) 0 rest
      else if comment || c == ' ' || (c == '\t' && tabs) then
        spaceFrom inFlow tabs comment line (column + 1) rest
      else if c == '#' then spaceFrom inFlow tabs true line (column + 1) rest
      else ⟨line, column, c :: rest⟩

namespace Cursor

/-- The next token inside brackets. -/
def nextInFlow (c : Cursor) : Cursor := spaceFrom true true false c.line c.column c.rest

/-- The next token behind a token after which no structure can start. -/
def nextAfter (c : Cursor) : Cursor := spaceFrom false true false c.line c.column c.rest

/-- The next token where structure can start, so that tabs do not count as space. -/
def nextFresh (c : Cursor) : Cursor := spaceFrom false false false c.line c.column c.rest

end Cursor

/-- Blanks and line breaks between the words of a scalar. -/
structure Gap where
  /-- The blanks before the first line break. -/
  blanks : List Char
  breaks : Nat
  /-- Whether the first line break was cancelled by a backslash. -/
  joined : Bool
  deriving DecidableEq, Repr

namespace Gap

/-- No gap. -/
def none : Gap := ⟨[], 0, false⟩

/-- Whether a line break has been passed. -/
def crossesLine (g : Gap) : Bool := g.joined || g.breaks != 0

/-- The gap with one more blank. Blanks that start a line do not count. -/
def blank (g : Gap) (c : Char) : Gap :=
  if g.crossesLine then g else { g with blanks := g.blanks ++ [c] }

/-- The gap with one more line break. -/
def lineBreak (g : Gap) : Gap := { g with blanks := [], breaks := g.breaks + 1 }

/-- What a gap contributes to the text: a single line break becomes a space, and
of several all but the first stay. -/
def text (g : Gap) : List Char :=
  if g.joined then List.replicate g.breaks '\n'
  else match g.breaks with
    | 0 => g.blanks
    | 1 => [' ']
    | n + 2 => List.replicate (n + 1) '\n'

end Gap

end PointDriver.Yaml

import PointDriver.Yaml.Reader

/-! # YAML documents

A text holds one document or none. A mark of three dashes may stand before it,
with a line that gives the version, and marks of three points behind it. -/

namespace PointDriver.Yaml

/-- Whether a character may stand in a document. -/
def isPrintable (c : Char) : Bool :=
  let n := c.toNat
  n == 0x9 || n == 0xA || n == 0xD || (0x20 ≤ n && n ≤ 0x7E) || n == 0x85 ||
    (0xA0 ≤ n && n ≤ 0xD7FF) || (0xE000 ≤ n && n ≤ 0xFFFD && n != 0xFEFF) || 0x10000 ≤ n

/-- The characters with every line break written as one line feed. -/
def unifyBreaks : List Char → List Char
  | '\r' :: '\n' :: rest => '\n' :: unifyBreaks rest
  | c :: rest => (if c == '\r' || c == '\u0085' then '\n' else c) :: unifyBreaks rest
  | [] => []

/-- The characters of a text without its byte order mark, if all may be there. -/
def prepare? (cs : List Char) : Option (List Char) :=
  let cs := match cs with
    | '\uFEFF' :: rest => rest
    | rest => rest
  if cs.all isPrintable then some (unifyBreaks cs) else none

/-- Whether a line gives a version that can be read. -/
def isVersionLine (cs : List Char) : Bool :=
  let start := "%YAML".toList
  let after := (cs.drop start.length).dropWhile isBlankChar
  let rest := after.drop 3
  start.isPrefixOf cs && isBlankChar ((cs.drop start.length).headD 'x') &&
    ("1.1".toList.isPrefixOf after || "1.2".toList.isPrefixOf after) && atSeparator rest &&
    match rest.dropWhile isBlankChar with
    | [] => true
    | c :: _ => c == '#'

/-- Passes over a line that gives the version, and says whether there was one. -/
def skipVersion? (c : Cursor) : Option (Bool × Cursor) :=
  if c.column == 0 && c.rest.head? == some '%' then
    let shown := c.rest.takeWhile (· != '\n')
    if isVersionLine shown then some (true, (c.skip shown.length).nextFresh) else none
  else some (false, c)

/-- Passes over marks that end a document. -/
def skipEnds : Nat → Cursor → Cursor
  | 0, c => c
  | fuel + 1, c =>
      if c.column == 0 && atDocumentEnd c.rest then skipEnds fuel (c.skip 3).nextAfter else c

/-- Whether nothing follows a document but marks that end it. -/
def isLast (c : Cursor) : Bool :=
  let next := c.nextAfter
  next.rest.isEmpty || (next.column == 0 && atDocumentEnd next.rest &&
    (skipEnds next.rest.length next).rest.isEmpty)

/-- Reads the only document of a text; a text without one is empty. -/
def readDocument? (cs : List Char) : Option (Option Node) := do
  let cs ← prepare? cs
  let fuel := 2 * cs.length + 2
  let (hasVersion, start) ← skipVersion? (Cursor.mk 0 0 cs).nextFresh
  if start.column == 0 && atDocumentStart start.rest then
    let mark := start.skip 3
    let content := mark.nextAfter
    if content.atEnd then
      if isLast mark then pure (some missing) else none
    else
      let (node, last) ← blockNode? fuel 0 (content.line != mark.line) content
      if isLast last then pure (some node) else none
  else if hasVersion then none
  else if start.rest.isEmpty then pure none
  else if start.atEnd then none
  else
    let (node, last) ← blockNode? fuel 0 true start
    if isLast last then pure (some node) else none

/-- Reads the only document of a text. -/
def read? (text : String) : Option (Option Node) := readDocument? text.toList

end PointDriver.Yaml

import PointDriver.Yaml.Cursor

/-! # YAML scalars

The three ways of writing a text: without quotes, between quotes, and as a block
of indented lines. Lines of a text are joined by folding their breaks. -/

namespace PointDriver.Yaml

/-- The characters with a meaning inside brackets. -/
def isFlowIndicator (c : Char) : Bool :=
  c == ',' || c == '[' || c == ']' || c == '\x7b' || c == '\x7d'

/-- The characters that cannot start an unquoted scalar. -/
def isIndicator (c : Char) : Bool :=
  isFlowIndicator c || c == '#' || c == '&' || c == '*' || c == '!' || c == '|' || c == '>' ||
    c == '\'' || c == '"' || c == '%' || c == '@' || c == '\x60'

/-- Whether an unquoted scalar can start here. -/
def startsPlain (inFlow : Bool) : List Char → Bool
  | [] => false
  | c :: rest =>
      if isBlankChar c || c == '\n' || isIndicator c then false
      else if c == '-' then !atSeparator rest
      else if c == '?' || c == ':' then !inFlow && !atSeparator rest
      else true

/-- Reads an unquoted scalar from its first character on. Outside brackets, a
line that goes on with it is indented by at least `least`. -/
def plainFrom (inFlow : Bool) (least : Nat) :
    Gap → Nat → Nat → List Char → Option (List Char × Cursor)
  | _, line, column, [] => some ([], ⟨line, column, []⟩)
  | gap, line, column, c :: rest =>
      if c == '\n' then plainFrom inFlow least gap.lineBreak (line + 1) 0 rest
      else if isBlankChar c then
        if c == '\t' && gap.crossesLine && column < least then none
        else plainFrom inFlow least (gap.blank c) line (column + 1) rest
      else
        let isNewWord := gap.crossesLine || !gap.blanks.isEmpty
        let stops := (isNewWord && c == '#') ||
          (gap.crossesLine && ((!inFlow && column < least) || atDocumentMark column (c :: rest))) ||
          (c == ':' && atSeparator rest) || (inFlow && isFlowIndicator c)
        if stops then some ([], ⟨line, column, c :: rest⟩)
        else if inFlow && c == ':' && rest.head?.any fun d => isFlowIndicator d || d == '?' then
          none
        else
          (plainFrom inFlow least .none line (column + 1) rest).map fun (text, cursor) =>
            (gap.text ++ c :: text, cursor)

/-- The number that hexadecimal digits spell. -/
def hexNumber? (cs : List Char) : Option Nat :=
  cs.foldlM (fun n c =>
    if c.isDigit then some (16 * n + (c.toNat - '0'.toNat))
    else if 'a' ≤ c && c ≤ 'f' then some (16 * n + (c.toNat - 'a'.toNat + 10))
    else if 'A' ≤ c && c ≤ 'F' then some (16 * n + (c.toNat - 'A'.toNat + 10))
    else none) 0

/-- The character with a code number, if there is one. -/
def character? (n : Nat) : Option Char :=
  if (0xD800 ≤ n && n ≤ 0xDFFF) || 0x10FFFF < n then none else some (Char.ofNat n)

/-- How many hexadecimal digits follow a letter after a backslash. -/
def escapeWidth (c : Char) : Nat :=
  if c == 'x' then 2 else if c == 'u' then 4 else if c == 'U' then 8 else 0

/-- The character that a letter after a backslash stands for. -/
def escapedChar? (c : Char) : Option Char :=
  match c with
  | '0' => some '\x00'
  | 'a' => some '\x07'
  | 'b' => some '\x08'
  | 't' => some '\t'
  | '\t' => some '\t'
  | 'n' => some '\n'
  | 'v' => some '\x0b'
  | 'f' => some '\x0c'
  | 'r' => some '\r'
  | 'e' => some '\x1b'
  | ' ' => some ' '
  | '"' => some '"'
  | '/' => some '/'
  | '\\' => some '\\'
  | 'N' => some '\u0085'
  | '_' => some '\u00a0'
  | 'L' => some '\u2028'
  | 'P' => some '\u2029'
  | _ => none

/-- Reads the escape behind a backslash: its character and how long it is. -/
def escape? : List Char → Option (Char × Nat)
  | [] => none
  | c :: rest =>
      let width := escapeWidth c
      if width = 0 then (escapedChar? c).map fun d => (d, 1)
      else if rest.length < width then none
      else ((hexNumber? (rest.take width)).bind character?).map fun d => (d, width + 1)

/-- Reads a scalar behind its opening quote. The first argument counts
characters that an escape has already accounted for. -/
def quotedFrom (double : Bool) :
    Nat → Gap → Nat → Nat → List Char → Option (List Char × Cursor)
  | _, _, _, _, [] => none
  | taken + 1, gap, line, column, _ :: rest => quotedFrom double taken gap line (column + 1) rest
  | 0, gap, line, column, c :: rest =>
      let prepend (text : List Char) (read : Option (List Char × Cursor)) :
          Option (List Char × Cursor) :=
        read.map fun (more, cursor) => (gap.text ++ text ++ more, cursor)
      if c == '\n' then quotedFrom double 0 gap.lineBreak (line + 1) 0 rest
      else if isBlankChar c then quotedFrom double 0 (gap.blank c) line (column + 1) rest
      else if atDocumentMark column (c :: rest) then none
      else if double && c == '"' then some (gap.text, ⟨line, column + 1, rest⟩)
      else if double && c == '\\' then
        match rest with
        | '\n' :: rest =>
            prepend [] (quotedFrom double 0 ⟨[], 0, true⟩ (line + 1) 0 rest)
        | rest =>
            match escape? rest with
            | none => none
            | some (d, width) =>
                prepend [d] (quotedFrom double width .none line (column + 1) rest)
      else if !double && c == '\'' then
        match rest with
        | '\'' :: rest => prepend ['\''] (quotedFrom double 0 .none line (column + 2) rest)
        | rest => some (gap.text, ⟨line, column + 1, rest⟩)
      else prepend [c] (quotedFrom double 0 .none line (column + 1) rest)

/-- What becomes of the line breaks at the end of a block. -/
inductive Chomping where
  /-- All of them go. -/
  | strip
  /-- The first of them stays. -/
  | clip
  /-- All of them stay. -/
  | keep
  deriving DecidableEq, Repr

/-- The heading of a block of text. -/
structure BlockHeader where
  /-- Whether lines stay apart. -/
  literal : Bool
  chomping : Chomping
  /-- How far the block is indented, if the heading says so. -/
  indent : Option Nat
  deriving DecidableEq, Repr

/-- Reads the signs of a heading: at most one for the line breaks at the end
and one digit for the indentation, in any order. -/
def blockHeader? (literal : Bool) (cs : List Char) : Option (BlockHeader × List Char) :=
  let chomping? : Char → Option Chomping := fun c =>
    if c == '+' then some .keep else if c == '-' then some .strip else none
  let digit? : Char → Option Nat := fun c => if c.isDigit then some (c.toNat - '0'.toNat) else none
  let header (chomping : Option Chomping) (indent : Option Nat) (rest : List Char) :
      Option (BlockHeader × List Char) :=
    if indent == some 0 then none else some (⟨literal, chomping.getD .clip, indent⟩, rest)
  match cs with
  | a :: b :: rest =>
      match chomping? a, digit? a with
      | some c, _ =>
          match digit? b with
          | some n => header (some c) (some n) rest
          | none => header (some c) none (b :: rest)
      | none, some n =>
          match chomping? b with
          | some c => header (some c) (some n) rest
          | none => header none (some n) (b :: rest)
      | none, none => header none none (a :: b :: rest)
  | [a] =>
      match chomping? a, digit? a with
      | some c, _ => header (some c) none []
      | none, some n => header none (some n) []
      | none, none => header none none [a]
  | [] => header none none []

/-- Passes over empty lines and indentation up to a column; without a column,
all spaces are indentation. Returns the number of empty lines, the furthest
column that spaces reached, and the place of the first other character. -/
def emptyLines (indent : Option Nat) :
    Nat → Nat → Nat → Nat → List Char → Option (Nat × Nat × Cursor)
  | breaks, furthest, line, column, [] => some (breaks, max furthest column, ⟨line, column, []⟩)
  | breaks, furthest, line, column, c :: rest =>
      let inIndent : Bool := indent.all fun n => column < n
      if c == ' ' && inIndent then emptyLines indent breaks furthest line (column + 1) rest
      else if c == '\t' && inIndent then none
      else if c == '\n' then
        emptyLines indent (breaks + 1) (max furthest column) (line + 1) 0 rest
      else some (breaks, max furthest column, ⟨line, column, c :: rest⟩)

/-- The end of a line of a block, which is added only when it is known what
follows. -/
structure Pending where
  /-- Whether the last line ended with a break. -/
  lineBreak : Bool
  /-- The empty lines after it. -/
  breaks : Nat
  /-- Whether the last line began with a blank. -/
  indented : Bool
  deriving DecidableEq, Repr

/-- What stands between two lines of a block. In a folded one the break between
two lines that do not begin with blanks becomes a space or goes. -/
def Pending.text (literal : Bool) (p : Pending) (indented : Bool) : List Char :=
  let empty := List.replicate p.breaks '\n'
  if !literal && p.lineBreak && !p.indented && !indented then
    (if p.breaks = 0 then [' '] else []) ++ empty
  else (if p.lineBreak then ['\n'] else []) ++ empty

/-- Reads the lines of a block that are indented to its column. The first
argument bounds their number. -/
def blockLines (literal : Bool) (indent : Nat) :
    Nat → Pending → Cursor → Option (List Char × Pending × Cursor)
  | 0, _, _ => none
  | fuel + 1, pending, cursor =>
      if cursor.column != indent || cursor.rest.isEmpty then some ([], pending, cursor)
      else
        let indented := cursor.rest.head?.any isBlankChar
        let shown := cursor.rest.takeWhile (· != '\n')
        let ended := cursor.rest.dropWhile (· != '\n')
        let start : Nat × Nat := if ended.isEmpty then (cursor.line, cursor.column + shown.length)
          else (cursor.line + 1, 0)
        match emptyLines (some indent) 0 0 start.1 start.2 (ended.drop 1) with
        | none => none
        | some (breaks, _, next) =>
            (blockLines literal indent fuel ⟨!ended.isEmpty, breaks, indented⟩ next).map
              fun (text, last, cursor) =>
                (pending.text literal indented ++ shown ++ text, last, cursor)

/-- Reads a block of text behind its first sign, inside a structure whose
content starts at column `least` or later. -/
def block? (literal : Bool) (least : Nat) (cursor : Cursor) : Option (List Char × Cursor) := do
  let (header, rest) ← blockHeader? literal cursor.rest
  let rest := rest.dropWhile isBlankChar
  let rest := if rest.head? == some '#' then rest.dropWhile (· != '\n') else rest
  if rest.head?.any (· != '\n') then none
  else
    let line := cursor.line + 1
    let explicit := header.indent.map fun n => (least - 1) + n
    let (breaks, furthest, start) ← emptyLines explicit 0 0 line 0 (rest.drop 1)
    let indent := explicit.getD (max (max furthest least) 1)
    let (text, last, cursor) ←
      blockLines literal indent (rest.length + 1) ⟨false, breaks, false⟩ start
    let ending : List Char := match header.chomping with
      | .strip => []
      | .clip => if last.lineBreak then ['\n'] else []
      | .keep => (if last.lineBreak then ['\n'] else []) ++ List.replicate last.breaks '\n'
    pure (text ++ ending, cursor)

end PointDriver.Yaml

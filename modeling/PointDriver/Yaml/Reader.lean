import PointDriver.Yaml.Basic
import PointDriver.Yaml.Scalar

/-! # Reading YAML

A reader of documents made of sequences, mappings and scalars, in brackets or
by indentation. Anchors, tags and keys that are not scalars are refused. -/

namespace PointDriver.Yaml

/-- Reads a scalar that begins here, with or without quotes. -/
def scalar? (inFlow : Bool) (least : Nat) (c : Cursor) : Option (Node × Cursor) :=
  match c.rest with
  | '"' :: rest =>
      (quotedFrom true 0 .none c.line (c.column + 1) rest).map fun (text, c) =>
        (.quoted (String.ofList text), c)
  | '\'' :: rest =>
      (quotedFrom false 0 .none c.line (c.column + 1) rest).map fun (text, c) =>
        (.quoted (String.ofList text), c)
  | rest =>
      if startsPlain inFlow rest then
        (plainFrom inFlow least .none c.line c.column rest).map fun (text, c) =>
          (.plain (String.ofList text), c)
      else none

/-- The node that stands for a missing one. -/
def missing : Node := .plain ""

mutual

/-- Reads a node inside brackets. The first argument bounds the depth. -/
def flowNode? : Nat → Nat → Cursor → Option (Node × Cursor)
  | 0, _, _ => none
  | fuel + 1, least, c =>
      if atDocumentMark c.column c.rest then none
      else match c.rest with
        | '[' :: _ => (flowItems? fuel least (c.skip 1)).map fun (items, c) => (.sequence items, c)
        | '\x7b' :: _ =>
            (flowEntries? fuel least (c.skip 1)).map fun (entries, c) => (.mapping entries, c)
        | _ => scalar? true least c

/-- Reads the items of a sequence up to its closing bracket. An item followed by
a colon is a mapping of one entry. -/
def flowItems? : Nat → Nat → Cursor → Option (List Node × Cursor)
  | 0, _, _ => none
  | fuel + 1, least, c =>
      let c := c.nextInFlow
      if c.rest.head? == some ']' then some ([], c.skip 1)
      else do
        let (node, next) ← flowNode? fuel least c
        let next := next.nextInFlow
        let (item, next) ←
          if next.rest.head? == some ':' && next.line == c.line && node.scalarText?.isSome then do
            let (value, next) ← flowValue? fuel least (next.skip 1)
            pure (Node.mapping [(node, value)], next)
          else pure (node, next)
        match next.rest with
        | ',' :: _ => do
            let (items, last) ← flowItems? fuel least (next.skip 1)
            pure (item :: items, last)
        | ']' :: _ => pure ([item], next.skip 1)
        | _ => none

/-- Reads the entries of a mapping up to its closing brace. -/
def flowEntries? : Nat → Nat → Cursor → Option (List (Node × Node) × Cursor)
  | 0, _, _ => none
  | fuel + 1, least, c =>
      let c := c.nextInFlow
      if c.rest.head? == some '\x7d' then some ([], c.skip 1)
      else do
        let (key, next) ← flowNode? fuel least c
        let next := next.nextInFlow
        let (value, next) ←
          if next.rest.head? == some ':' then
            if next.line == c.line && key.scalarText?.isSome then
              flowValue? fuel least (next.skip 1)
            else none
          else pure (missing, next)
        match next.rest with
        | ',' :: _ => do
            let (entries, last) ← flowEntries? fuel least (next.skip 1)
            pure ((key, value) :: entries, last)
        | '\x7d' :: _ => pure ([(key, value)], next.skip 1)
        | _ => none

/-- Reads the value of an entry inside brackets, which may be missing, and goes
on to the token behind it. -/
def flowValue? : Nat → Nat → Cursor → Option (Node × Cursor)
  | 0, _, _ => none
  | fuel + 1, least, c =>
      let c := c.nextInFlow
      match c.rest with
      | ',' :: _ | ']' :: _ | '\x7d' :: _ => some (missing, c)
      | _ => (flowNode? fuel least c).map fun (node, c) => (node, c.nextInFlow)

end

/-- Whether an item of a sequence begins here. -/
def atDash (c : Cursor) : Bool :=
  match c.rest with
  | '-' :: rest => atSeparator rest
  | _ => false

/-- Whether a colon follows that ends a key begun on the line. -/
def atColon (line : Nat) (c : Cursor) : Bool :=
  c.line == line &&
    match c.rest with
    | ':' :: rest => atSeparator rest
    | _ => false

/-- Passes over the blanks of a line. -/
def skipBlanks (c : Cursor) : Cursor :=
  let blanks := c.rest.takeWhile isBlankChar
  c.skip blanks.length

/-- Reads a key and the colon behind it. -/
def key? (least : Nat) (c : Cursor) : Option (Node × Cursor) := do
  let (key, next) ← scalar? false least c
  let next := skipBlanks next
  if atColon c.line next then pure (key, next.skip 1) else none

mutual

/-- Reads a node that begins here. Its lines are indented by at least `least`,
and `structured` says whether a sequence or mapping can begin here. -/
def blockNode? : Nat → Nat → Bool → Cursor → Option (Node × Cursor)
  | 0, _, _, _ => none
  | fuel + 1, least, structured, c =>
      if atDash c then
        if structured then
          (blockItems? fuel c.column false c).map fun (items, c) => (.sequence items, c)
        else none
      else match c.rest with
        | '[' :: _ | '\x7b' :: _ => flowNode? (2 * c.rest.length + 2) least c
        | '|' :: _ => (block? true least (c.skip 1)).map fun (text, c) =>
            (.quoted (String.ofList text), c)
        | '>' :: _ => (block? false least (c.skip 1)).map fun (text, c) =>
            (.quoted (String.ofList text), c)
        | _ => do
            let (node, next) ← scalar? false least c
            let behind := skipBlanks next
            match behind.rest with
            | ':' :: rest =>
                if structured && atColon c.line behind then
                  let (value, last) ← blockValue? fuel c.column (behind.skip 1)
                  let (entries, last) ← blockEntries? fuel c.column last
                  pure (.mapping ((node, value) :: entries), last)
                else if atSeparator rest then none
                else pure (node, next)
            | _ => pure (node, next)

/-- Reads the items of a sequence, each behind a dash at the column. A sequence
that is the value of a key may have its dashes at the column of the key; it ends
where the next key begins. -/
def blockItems? : Nat → Nat → Bool → Cursor → Option (List Node × Cursor)
  | 0, _, _, _ => none
  | fuel + 1, column, belongsToKey, c => do
      let start := c.skip 1
      let content := start.nextFresh
      let (item, last) ←
        if content.line == start.line && !content.rest.isEmpty then
          blockNode? fuel (column + 1) true content
        else if content.atEnd || content.column ≤ column then pure (missing, start)
        else blockNode? fuel (column + 1) true content
      let next := last.nextAfter
      if next.atEnd || next.column < column then pure ([item], next)
      else if next.column == column then
        if atDash next then do
          let (items, last) ← blockItems? fuel column belongsToKey next
          pure (item :: items, last)
        else if belongsToKey then pure ([item], next)
        else none
      else none

/-- Reads the value behind the colon of a key at the column. -/
def blockValue? : Nat → Nat → Cursor → Option (Node × Cursor)
  | 0, _, _ => none
  | fuel + 1, column, start =>
      let content := start.nextAfter
      if content.line == start.line && !content.rest.isEmpty then
        blockNode? fuel (column + 1) false content
      else if content.atEnd || content.column < column then some (missing, start)
      else if column < content.column then blockNode? fuel (column + 1) true content
      else if atDash content then
        (blockItems? fuel column true content).map fun (items, c) => (.sequence items, c)
      else some (missing, start)

/-- Reads further entries of a mapping, each with its key at the column. -/
def blockEntries? : Nat → Nat → Cursor → Option (List (Node × Node) × Cursor)
  | 0, _, _ => none
  | fuel + 1, column, last => do
      let next := last.nextAfter
      if next.atEnd || next.column < column then pure ([], next)
      else if next.column == column && !atDash next then do
        let (key, behind) ← key? (column + 1) next
        let (value, last) ← blockValue? fuel column behind
        let (entries, last) ← blockEntries? fuel column last
        pure ((key, value) :: entries, last)
      else none

end

end PointDriver.Yaml

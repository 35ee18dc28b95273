/-!
# Tokens of a generated source

A line of code is cut into words, quoted texts and marks. A text holds no escape
and ends on its line.
-/

namespace PointDriver.Emitted

/-- A token of a line of code. -/
inductive Token where
  | word (name : String)
  /-- A text between double quotes. -/
  | text (content : String)
  | mark (c : Char)
  deriving DecidableEq, Repr

/-- A character of words. -/
def continuesWord (c : Char) : Bool := c.isAlphanum || c == '_'

/-- A character that a quoted text must not hold. -/
def breaksText (c : Char) : Bool := c == '\\' || c == '\n' || c == '\r'

/-- What the reader of a line is in the middle of, with the characters it has taken. -/
inductive Mode where
  | between
  | word (taken : List Char)
  | text (taken : List Char)
  deriving DecidableEq, Repr

/-- Takes a character that is not in a word or a text. -/
def Mode.start (c : Char) : List Token × Mode :=
  if continuesWord c then ([], .word [c])
  else if c == '"' then ([], .text [])
  else if c == ' ' then ([], .between)
  else ([.mark c], .between)

/-- Takes a character: the tokens that it completes, and how to go on. -/
@[simp] def Mode.step : Mode → Char → Option (List Token × Mode)
  | .between, c => some (start c)
  | .word taken, c =>
      if continuesWord c then some ([], .word (taken ++ [c]))
      else some (.word (String.ofList taken) :: (start c).1, (start c).2)
  | .text taken, c =>
      if c == '"' then some ([.text (String.ofList taken)], .between)
      else if breaksText c then none
      else some ([], .text (taken ++ [c]))

/-- Takes characters in order. -/
@[simp] def Mode.scan : Mode → List Char → Option (List Token × Mode)
  | mode, [] => some ([], mode)
  | mode, c :: rest => do
      let (tokens, mode) ← mode.step c
      let (more, mode) ← mode.scan rest
      pure (tokens ++ more, mode)

/-- The last token of a line. -/
def Mode.finish : Mode → Option (List Token)
  | .between => some []
  | .word taken => some [.word (String.ofList taken)]
  | .text _ => none

/-- The tokens of a line. -/
def tokens? (line : String) : Option (List Token) := do
  let (tokens, mode) ← Mode.between.scan line.toList
  let last ← mode.finish
  pure (tokens ++ last)

/-- The tokens of lines in order. -/
def linesTokens? : List String → Option (List Token)
  | [] => some []
  | line :: rest => do
      let tokens ← tokens? line
      let more ← linesTokens? rest
      pure (tokens ++ more)

namespace Mode
variable {mode : Mode} {taken cs : List Char}

theorem scan_append (mode : Mode) (a b : List Char) :
    mode.scan (a ++ b) = (mode.scan a).bind fun x =>
      (x.2.scan b).map fun y => (x.1 ++ y.1, y.2) := by
  induction a generalizing mode with
  | nil => simp
  | cons c a ih =>
      simp only [List.cons_append, scan, bind, ih]
      cases mode.step c with
      | none => rfl
      | some x =>
          simp only [Option.bind_some]
          cases x.2.scan a with
          | none => rfl
          | some y =>
              cases hy : y.2.scan b with
              | none => simp [hy]
              | some z => simp [hy]

/-- A text takes any characters that do not end it. -/
theorem scan_text (h : ∀ c ∈ cs, c ≠ '"' ∧ breaksText c = false) (taken : List Char) :
    (text taken).scan cs = some ([], text (taken ++ cs)) := by
  induction cs generalizing taken with
  | nil => simp
  | cons c cs ih =>
      obtain ⟨hc, hb⟩ := h c List.mem_cons_self
      simp [hc, hb, ih fun x hx => h x (List.mem_cons_of_mem _ hx)]

theorem scan_word (h : ∀ c ∈ cs, continuesWord c = true) (taken : List Char) :
    (word taken).scan cs = some ([], word (taken ++ cs)) := by
  induction cs generalizing taken with
  | nil => simp
  | cons c cs ih =>
      simp [h c List.mem_cons_self, ih fun x hx => h x (List.mem_cons_of_mem _ hx)]

/-- A word starts where none is being read. -/
theorem scan_between_word (hne : cs ≠ []) (h : ∀ c ∈ cs, continuesWord c = true) :
    between.scan cs = some ([], word cs) := by
  obtain ⟨c, rest, rfl⟩ := List.exists_cons_of_ne_nil hne
  have hrest := scan_word (fun x hx => h x (List.mem_cons_of_mem c hx)) [c]
  simp [start, h c List.mem_cons_self, hrest]

/-- A word ends before a character of another kind. -/
theorem scan_word_end {c : Char} (hc : continuesWord c = false) (taken rest : List Char) :
    (word taken).scan (c :: rest) = (between.scan (c :: rest)).map fun x =>
      (.word (String.ofList taken) :: x.1, x.2) := by
  simp only [scan, step, hc, bind, Option.bind_some, Bool.false_eq_true, if_false]
  cases (start c).2.scan rest <;> simp

/-- Two texts are taken one after the other. -/
theorem scan_join {first second third : Mode} {a b : String} {s t : List Token}
    (ha : first.scan a.toList = some (s, second)) (hb : second.scan b.toList = some (t, third)) :
    first.scan (a ++ b).toList = some (s ++ t, third) := by
  rw [String.toList_append, scan_append, ha]
  simp [hb]

/-- The characters of a text that is written out are taken. -/
theorem scan_literal {first second : Mode} {line : String} {cs : List Char} {s : List Token}
    (h : line = String.ofList cs) (hs : first.scan cs = some (s, second)) :
    first.scan line.toList = some (s, second) := by
  rw [h, String.toList_ofList]
  exact hs

end Mode

theorem tokens?_of_scan {line : String} {s : List Token}
    (h : Mode.between.scan line.toList = some (s, .between)) : tokens? line = some s := by
  simp [tokens?, h, Mode.finish]

/-- The tokens of a line that is written out. -/
theorem tokens?_literal {line : String} {cs : List Char} {s : List Token}
    (h : line = String.ofList cs) (hs : Mode.between.scan cs = some (s, .between)) :
    tokens? line = some s :=
  tokens?_of_scan (Mode.scan_literal h hs)

end PointDriver.Emitted

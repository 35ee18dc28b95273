import PointDriver.Proofs.CommandLine.Settling

/-!
# Reading up to two dashes

Arguments are read one by one until one of them is taken by nothing or two
dashes stand alone. What follows the dashes does not change how the arguments
before them are read. Among these, an option with its value attached is recorded
whatever the value looks like.
-/

namespace PointDriver.CommandLine

/-- Two dashes alone. -/
def twoDashes : Bytes := [dash, dash]

/-- Where a reading stops when two dashes and more follow its arguments. -/
def Stop.before (more : List Bytes) : Stop → Stop
  | .finished => .escaped more
  | .word text rest => .word text (rest ++ twoDashes :: more)
  | .escaped rest => .escaped (rest ++ twoDashes :: more)

section Scanning
variable {table : List Spec} {operand : Option Spec} {arguments : List Bytes}

/-- Reads one argument. Nothing is left of the reading where it stops. -/
def advance (table : List Spec) (operand : Option Spec) (r : Reading) (a : Bytes) :
    Except Fault (Option Reading) :=
  match Word.ofBytes a with
  | .escape => .ok none
  | .long name attached => (r.giveNamed table name attached).map some
  | .letters letters =>
      if takesNumber r letters then
        .ok (some { r with pending := r.pending.map fun o => { o with value := some a } })
      else
        (r.giveLetters table (Utf8.scan 0 letters).1 (Utf8.scan 0 letters).2).map some
  | .plain =>
      match r.waiting?, operand with
      | some o, _ => .ok (some { r with pending := some { o with value := some a } })
      | none, some s =>
          if r.lacks s then r.settle.map fun r => some { r with pending := some ⟨s, some a⟩ }
          else .ok none
      | none, none => .ok none

/-- Arguments are read one by one, until one of them is taken by nothing. -/
theorem scan_cons {a : Bytes} (h : a ≠ twoDashes) (r : Reading) (rest : List Bytes) :
    scan table operand r (a :: rest) =
      (advance table operand r a).bind fun next => match next with
        | some r => scan table operand r rest
        | none => .ok (r, .word a rest) := by
  simp only [scan, advance]
  cases hw : Word.ofBytes a with
  | escape => exact absurd (Word.ofBytes_eq_escape_iff.mp hw) h
  | long name attached =>
      simp only
      cases r.giveNamed table name attached <;> rfl
  | letters letters =>
      simp only
      cases takesNumber r letters with
      | true => rfl
      | false =>
          cases r.giveLetters table (Utf8.scan 0 letters).1 (Utf8.scan 0 letters).2 <;> rfl
  | plain =>
      simp only
      cases r.waiting? with
      | some o => rfl
      | none =>
          cases operand with
          | none => rfl
          | some s =>
              simp only
              cases r.lacks s with
              | false => rfl
              | true => cases r.settle <;> rfl

/-- Without two dashes among the arguments, they are read as they are without what follows. -/
theorem scan_twoDashes (h : twoDashes ∉ arguments) (r : Reading) (more : List Bytes) :
    scan table operand r (arguments ++ twoDashes :: more) =
      (scan table operand r arguments).map fun s => (s.1, s.2.before more) := by
  induction arguments generalizing r with
  | nil => rfl
  | cons a rest ih =>
      obtain ⟨ha, hrest⟩ := not_or.mp (mt List.mem_cons.mpr h)
      rw [List.cons_append, scan_cons (Ne.symm ha), scan_cons (Ne.symm ha)]
      rcases advance table operand r a with e | (_ | next)
      · rfl
      · rfl
      · exact ih hrest next

/-- Without two dashes, what is left where the reading stops is the end of the arguments. -/
theorem scan_eq_ok (h : twoDashes ∉ arguments) {r r' : Reading} {stop : Stop}
    (hs : scan table operand r arguments = .ok (r', stop)) :
    stop = .finished ∨ ∃ text rest, stop = .word text rest ∧ text :: rest <:+ arguments := by
  induction arguments generalizing r with
  | nil =>
      cases hs
      exact Or.inl rfl
  | cons a rest ih =>
      obtain ⟨ha, hrest⟩ := not_or.mp (mt List.mem_cons.mpr h)
      rw [scan_cons (Ne.symm ha)] at hs
      rcases hstep : advance table operand r a with e | (_ | next)
      · rw [hstep] at hs
        cases hs
      · rw [hstep] at hs
        cases hs
        exact Or.inr ⟨a, rest, rfl, List.suffix_refl _⟩
      · rw [hstep] at hs
        refine (ih hrest hs).imp_right ?_
        rintro ⟨text, left, rfl, hleft⟩
        exact ⟨text, left, rfl, hleft.trans (List.suffix_cons a rest)⟩

end Scanning

/-- Options with their values, each as one argument. -/
def attachedWords (given : List (Spec × Bytes)) : List Bytes :=
  given.map fun g => dash :: dash :: (Utf8.encode g.1.name ++ attachment (some g.2))

/-- Options with their values as they are recorded. -/
def occurrences (given : List (Spec × Bytes)) : List Occurrence :=
  given.map fun g => ⟨g.1, some g.2⟩

theorem twoDashes_not_mem_attachedWords (given : List (Spec × Bytes)) :
    twoDashes ∉ attachedWords given := by
  intro h
  obtain ⟨g, -, hg⟩ := List.mem_map.mp h
  simp [twoDashes] at hg

end PointDriver.CommandLine

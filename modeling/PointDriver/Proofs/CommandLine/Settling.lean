import PointDriver.CommandLine.Scan
import PointDriver.Proofs.CommandLine.Words

/-!
# Reading with at most one pending option

A pending option is settled before anything else is read, so a reading that is
carried to the end is determined by its settled form. An option that waits for
its value takes the next argument or the reading fails.
-/

namespace PointDriver.CommandLine

/-- An option whose value is any one text. -/
def Spec.TakesText (s : Spec) : Prop :=
  ∃ v, s.role = .value v ∧ v.content = .text ∧ v.repeats = false

/-- A table without letters. -/
def Letterless (table : List Spec) : Prop := ∀ s ∈ table, s.letter = none

/-- Reads the arguments to their end and settles what is pending. -/
def readFrom (table : List Spec) (r : Reading) (arguments : List Bytes) :
    Except Fault Reading := do
  match ← scan table none r arguments with
  | (r, .finished) | (r, .escaped []) => r.settle
  | (_, .word text _) | (_, .escaped (text :: _)) => .error (.unknownArgument (Utf8.lossy text))

theorem scanOptions_eq_readFrom (table : List Spec) (arguments : List Bytes) :
    scanOptions table arguments = readFrom table .start arguments := rfl

section Steps
variable {table : List Spec} {r f : Reading} {a : Bytes} {rest : List Bytes}

@[simp] theorem readFrom_nil : readFrom table r [] = r.settle := rfl

/-- Reading takes one argument by its kind and goes on with the others. -/
theorem readFrom_cons : readFrom table r (a :: rest) = match Word.ofBytes a with
    | .escape => (match rest with
      | [] => r.settle
      | text :: _ => .error (.unknownArgument (Utf8.lossy text)))
    | .long name attached =>
        (r.giveNamed table name attached).bind fun r => readFrom table r rest
    | .letters letters =>
        if takesNumber r letters then
          readFrom table
            { r with pending := r.pending.map fun o => { o with value := some a } } rest
        else (r.giveLetters table (Utf8.scan 0 letters).1 (Utf8.scan 0 letters).2).bind
          fun r => readFrom table r rest
    | .plain => (match r.waiting? with
      | some o => readFrom table { r with pending := some { o with value := some a } } rest
      | none => .error (.unknownArgument (Utf8.lossy a))) := by
  simp only [readFrom, scan]
  cases Word.ofBytes a with
  | escape => cases rest <;> rfl
  | long name attached =>
      cases hg : r.giveNamed table name attached <;> simp [hg, bind, Except.bind]
  | letters letters =>
      cases hn : takesNumber r letters with
      | true => simp [hn]
      | false =>
          cases hg : r.giveLetters table (Utf8.scan 0 letters).1 (Utf8.scan 0 letters).2 <;>
            simp [hn, hg, bind, Except.bind]
  | plain => cases r.waiting? <;> simp [bind, Except.bind]

theorem readFrom_escape_eq_ok_iff :
    readFrom table r ([dash, dash] :: rest) = .ok f ↔ rest = [] ∧ r.settle = .ok f := by
  have hw : Word.ofBytes [dash, dash] = .escape := rfl
  rw [readFrom_cons, hw]
  cases rest with
  | nil => simp
  | cons b more => simp

theorem readFrom_long_eq_ok_iff {name : Bytes} {attached : Option Bytes}
    (h : Word.ofBytes a = .long name attached) :
    readFrom table r (a :: rest) = .ok f ↔
      ∃ r₁, r.giveNamed table name attached = .ok r₁ ∧ readFrom table r₁ rest = .ok f := by
  rw [readFrom_cons, h]
  cases hg : r.giveNamed table name attached <;> simp [hg, Except.bind]

/-- A word that no option waits for ends the reading with an error. -/
theorem readFrom_plain_ne_ok (h : Word.ofBytes a = .plain) (hw : r.waiting? = none) :
    readFrom table r (a :: rest) ≠ .ok f := by
  rw [readFrom_cons, h]
  simp [hw]

/-- Without letters in the table, a single dash introduces nothing. -/
theorem giveLetters_letterless (ht : Letterless table) {cs : List Char} {broken : Bytes}
    (hne : cs ≠ [] ∨ broken ≠ []) :
    ∃ shown, r.giveLetters table cs broken = .error (.unknownArgument shown) := by
  cases cs with
  | cons c more =>
      have hl : lettered? table c = none := by
        apply List.find?_eq_none.mpr
        intro s hs
        simp [ht s hs]
      exact ⟨"-" ++ c.toString, by simp only [Reading.giveLetters, hl]⟩
  | nil =>
      obtain ⟨b, more, rfl⟩ := List.exists_cons_of_ne_nil (hne.resolve_left fun h => h rfl)
      exact ⟨_, rfl⟩

/-- Unless an option takes them as a number, letters end the reading. -/
theorem readFrom_letters (ht : Letterless table) {letters : Bytes}
    (h : Word.ofBytes a = .letters letters) (hn : takesNumber r letters = false)
    (rest : List Bytes) :
    ∃ shown, readFrom table r (a :: rest) = .error (.unknownArgument shown) := by
  have hne : (Utf8.scan 0 letters).1 ≠ [] ∨ (Utf8.scan 0 letters).2 ≠ [] := by
    by_contra hcon
    obtain ⟨h1, h2⟩ := not_or.mp hcon
    have hs := Utf8.encodeChars_scan letters
    rw [not_not.mp h1, not_not.mp h2] at hs
    exact (Word.ofBytes_eq_letters_iff.mp h).2.1 (by simpa using hs.symm)
  obtain ⟨shown, hg⟩ := giveLetters_letterless (r := r) ht hne
  refine ⟨shown, ?_⟩
  rw [readFrom_cons, h]
  simp [hn, hg, Except.bind]

theorem readFrom_letters_ne_ok (ht : Letterless table) {letters : Bytes}
    (h : Word.ofBytes a = .letters letters) (hn : takesNumber r letters = false) :
    readFrom table r (a :: rest) ≠ .ok f := by
  obtain ⟨shown, he⟩ := readFrom_letters ht h hn rest
  simp [he]

end Steps

namespace Reading
variable {r r' : Reading} {s : Spec}

/-- A reading without a pending option. -/
def settled (recorded : List Occurrence) : Reading := ⟨recorded, none⟩

/-- A reading whose last option waits for its value. -/
def awaiting (recorded : List Occurrence) (s : Spec) : Reading := ⟨recorded, some ⟨s, none⟩⟩

/-- A reading whose last option has taken a value but is not checked yet. -/
def holding (recorded : List Occurrence) (s : Spec) (value : Bytes) : Reading :=
  ⟨recorded, some ⟨s, some value⟩⟩

variable {recorded : List Occurrence} {value : Bytes}

@[simp] theorem settle_settled : (settled recorded).settle = .ok (settled recorded) := rfl

@[simp] theorem waiting?_settled : (settled recorded).waiting? = none := rfl

@[simp] theorem waiting?_awaiting : (awaiting recorded s).waiting? = some ⟨s, none⟩ := rfl

@[simp] theorem waiting?_holding : (holding recorded s value).waiting? = none := rfl

theorem settle_awaiting_ne_ok : (awaiting recorded s).settle ≠ .ok r' := by
  simp [awaiting, settle, record]

/-- A value is recorded if its option is new and its bytes are a text. -/
theorem record_eq_ok_iff (hs : s.TakesText) (pending : Option Occurrence) :
    (Reading.mk recorded pending).record ⟨s, some value⟩ = .ok r' ↔
      (Reading.mk recorded pending).has s.name = false ∧ (∃ text, value = Utf8.encode text) ∧
        r' = ⟨recorded ++ [⟨s, some value⟩], pending⟩ := by
  obtain ⟨v, hrole, hcontent, hrepeats⟩ := hs
  have hv : valueOf s = some v := by simp [valueOf, hrole]
  have hf : contentFault? s value =
      if (Utf8.decode? value).isNone then some .brokenText else none := by
    simp [contentFault?, hv, hcontent]
  cases hh : (Reading.mk recorded pending).has s.name with
  | true => simp [record, hh, mayRepeat, hv, hrepeats]
  | false =>
      cases hd : Utf8.decode? value with
      | none =>
          have : ¬ ∃ text, value = Utf8.encode text := by
            rintro ⟨text, rfl⟩
            simp at hd
          simp [record, hh, hf, hd, this]
      | some text =>
          have : ∃ text, value = Utf8.encode text := ⟨text, Utf8.decode?_eq_some_iff.mp hd⟩
          simp [record, hh, hf, hd, this, eq_comm]

theorem settle_holding_eq_ok_iff (hs : s.TakesText) :
    (holding recorded s value).settle = .ok r' ↔
      (settled recorded).has s.name = false ∧ (∃ text, value = Utf8.encode text) ∧
        r' = settled (recorded ++ [⟨s, some value⟩]) :=
  record_eq_ok_iff hs none

theorem pending_of_settle (h : r.settle = .ok r') : r'.pending = none := by
  unfold settle at h
  cases hp : r.pending with
  | none =>
      rw [hp] at h
      cases h
      exact hp
  | some o =>
      simp only [hp, record] at h
      split at h
      · cases h
      split at h
      · cases h
      split at h
      · cases h
      · cases h
        rfl

theorem settle_of_pending (h : r.pending = none) : r.settle = .ok r := by
  simp [settle, h]

theorem waiting?_of_pending (h : r.pending = none) : r.waiting? = none := by
  simp [waiting?, h]

/-- An option can be named exactly when it can be named after settling. -/
theorem give_eq_ok_iff {attached : Option Bytes} :
    r.give s attached = .ok r' ↔ ∃ r₀, r.settle = .ok r₀ ∧ r₀.give s attached = .ok r' := by
  cases hr : r.settle with
  | error e =>
      cases hv : valueOf s <;> cases attached <;> simp [give, hv, hr, bind, Except.bind]
  | ok r₀ =>
      have h₀ := settle_of_pending (pending_of_settle hr)
      cases hv : valueOf s <;> cases attached <;>
        simp [give, hv, hr, h₀, bind, Except.bind]

/-- A name is understood exactly when it is understood after settling. -/
theorem giveNamed_eq_ok_iff {table : List Spec} {name : Bytes} {attached : Option Bytes} :
    r.giveNamed table name attached = .ok r' ↔
      ∃ r₀, r.settle = .ok r₀ ∧ r₀.giveNamed table name attached = .ok r' := by
  cases hn : (Utf8.decode? name).bind (named? table) with
  | none => simp [giveNamed, hn]
  | some s => simpa [giveNamed, hn] using give_eq_ok_iff

/-- Settling once more changes nothing. -/
theorem settle_eq_ok_iff : r.settle = .ok r' ↔ ∃ r₀, r.settle = .ok r₀ ∧ r₀.settle = .ok r' := by
  constructor
  · intro h
    exact ⟨r', h, settle_of_pending (pending_of_settle h)⟩
  · rintro ⟨r₀, h₀, h⟩
    rw [settle_of_pending (pending_of_settle h₀)] at h
    exact h₀.trans h

theorem give_text_attached (hs : s.TakesText) :
    (settled recorded).give s (some value) = .ok r' ↔
      (settled recorded).has s.name = false ∧ (∃ text, value = Utf8.encode text) ∧
        r' = settled (recorded ++ [⟨s, some value⟩]) := by
  obtain ⟨v, hrole, -⟩ := id hs
  have hv : valueOf s = some v := by simp [valueOf, hrole]
  simp only [give, hv, settle_settled, bind, Except.bind]
  exact record_eq_ok_iff hs none

theorem give_text_alone (hs : s.TakesText) :
    (settled recorded).give s none = .ok r' ↔ r' = awaiting recorded s := by
  obtain ⟨v, hrole, -⟩ := hs
  have hv : valueOf s = some v := by simp [valueOf, hrole]
  simp [give, hv, settled, awaiting, settle, bind, Except.bind, pure, Except.pure, eq_comm]

theorem give_flag_alone (hs : s.role = .flag) :
    (settled recorded).give s none = .ok r' ↔
      (settled recorded).has s.name = false ∧ r' = settled (recorded ++ [⟨s, none⟩]) := by
  have hv : valueOf s = none := by simp [valueOf, hs]
  cases hh : (settled recorded).has s.name with
  | true => simp [give, hv, hs, hh, bind, Except.bind]
  | false =>
      have hg : (settled recorded).give s none = .ok (settled (recorded ++ [⟨s, none⟩])) := by
        simp only [give, hv, settle_settled, bind, Except.bind, hs, hh]
        rfl
      simp [hg, eq_comm]

theorem give_flag_attached_ne_ok (hs : s.role = .flag) : r.give s (some value) ≠ .ok r' := by
  have hv : valueOf s = none := by simp [valueOf, hs]
  simp [give, hv]

end Reading

/-- What an option that waits takes from an argument of its own. -/
def Separable (s : Spec) (a : Bytes) : Prop :=
  Word.ofBytes a = .plain ∨
    ∃ letters, Word.ofBytes a = .letters letters ∧
      takesNumber (Reading.awaiting [] s) letters = true

section Whole
variable {table : List Spec} {recorded : List Occurrence} {r f : Reading} {s : Spec}
  {arguments : List Bytes}

theorem takesNumber_of_waiting? (h : r.waiting? = none) (letters : Bytes) :
    takesNumber r letters = false := by
  simp [takesNumber, h]

/-- Unless an option waits, reading goes on exactly as from the settled reading. -/
theorem readFrom_eq_ok_iff_settle (ht : Letterless table) (hw : r.waiting? = none) :
    readFrom table r arguments = .ok f ↔
      ∃ r₀, r.settle = .ok r₀ ∧ readFrom table r₀ arguments = .ok f := by
  have hwaits : ∀ {r₀}, r.settle = .ok r₀ → r₀.waiting? = none := fun h =>
    Reading.waiting?_of_pending (Reading.pending_of_settle h)
  cases arguments with
  | nil =>
      simp only [readFrom_nil]
      exact Reading.settle_eq_ok_iff
  | cons a rest =>
      cases ha : Word.ofBytes a with
      | escape =>
          obtain rfl := Word.ofBytes_eq_escape_iff.mp ha
          simp only [readFrom_escape_eq_ok_iff]
          constructor
          · rintro ⟨hr, h⟩
            obtain ⟨r₀, h₀, hf⟩ := Reading.settle_eq_ok_iff.mp h
            exact ⟨r₀, h₀, hr, hf⟩
          · rintro ⟨r₀, h₀, hr, hf⟩
            exact ⟨hr, Reading.settle_eq_ok_iff.mpr ⟨r₀, h₀, hf⟩⟩
      | long name attached =>
          simp only [readFrom_long_eq_ok_iff ha]
          constructor
          · rintro ⟨r₁, hg, h⟩
            obtain ⟨r₀, h₀, hg₀⟩ := Reading.giveNamed_eq_ok_iff.mp hg
            exact ⟨r₀, h₀, r₁, hg₀, h⟩
          · rintro ⟨r₀, h₀, r₁, hg₀, h⟩
            exact ⟨r₁, Reading.giveNamed_eq_ok_iff.mpr ⟨r₀, h₀, hg₀⟩, h⟩
      | letters letters =>
          constructor
          · intro h
            exact absurd h (readFrom_letters_ne_ok ht ha (takesNumber_of_waiting? hw letters))
          · rintro ⟨r₀, h₀, h⟩
            exact absurd h (readFrom_letters_ne_ok ht ha
              (takesNumber_of_waiting? (hwaits h₀) letters))
      | plain =>
          constructor
          · intro h
            exact absurd h (readFrom_plain_ne_ok ha hw)
          · rintro ⟨r₀, h₀, h⟩
            exact absurd h (readFrom_plain_ne_ok ha (hwaits h₀))

/-- Whether an option that waits takes a number does not depend on what is recorded. -/
theorem readFrom_awaiting_letters {a letters : Bytes} {rest : List Bytes}
    (ha : Word.ofBytes a = .letters letters)
    (hn : takesNumber (Reading.awaiting [] s) letters = true) :
    readFrom table (.awaiting recorded s) (a :: rest) =
      readFrom table (.holding recorded s a) rest := by
  have hn' : takesNumber (Reading.awaiting recorded s) letters = true := hn
  rw [readFrom_cons, ha]
  simp only [hn', if_true]
  rfl

theorem readFrom_awaiting_plain {a : Bytes} {rest : List Bytes} (ha : Word.ofBytes a = .plain) :
    readFrom table (.awaiting recorded s) (a :: rest) =
      readFrom table (.holding recorded s a) rest := by
  rw [readFrom_cons, ha]
  simp only [Reading.waiting?_awaiting]
  rfl

/-- An option that waits must find its value in the next argument. -/
theorem readFrom_awaiting_eq_ok_iff (ht : Letterless table) :
    readFrom table (.awaiting recorded s) arguments = .ok f ↔
      ∃ a rest, arguments = a :: rest ∧ Separable s a ∧
        readFrom table (.holding recorded s a) rest = .ok f := by
  cases arguments with
  | nil => simp [Reading.settle_awaiting_ne_ok]
  | cons a rest =>
      have hcons : (∃ a' rest', a :: rest = a' :: rest' ∧ Separable s a' ∧
          readFrom table (.holding recorded s a') rest' = .ok f) ↔
          Separable s a ∧ readFrom table (.holding recorded s a) rest = .ok f := by
        constructor
        · rintro ⟨a', rest', h, hs, hf⟩
          cases h
          exact ⟨hs, hf⟩
        · rintro ⟨hs, hf⟩
          exact ⟨a, rest, rfl, hs, hf⟩
      rw [hcons]
      cases ha : Word.ofBytes a with
      | escape =>
          obtain rfl := Word.ofBytes_eq_escape_iff.mp ha
          simp [readFrom_escape_eq_ok_iff, Reading.settle_awaiting_ne_ok, Separable, ha]
      | long name attached =>
          simp only [readFrom_long_eq_ok_iff ha, Separable, ha]
          constructor
          · rintro ⟨r₁, hg, -⟩
            obtain ⟨r₀, h₀, -⟩ := Reading.giveNamed_eq_ok_iff.mp hg
            exact absurd h₀ Reading.settle_awaiting_ne_ok
          · rintro ⟨h | ⟨letters, h, -⟩, -⟩
            · cases h
            · cases h
      | letters letters =>
          cases hn : takesNumber (Reading.awaiting [] s) letters with
          | true =>
              simp [readFrom_awaiting_letters ha hn, Separable, ha, hn]
          | false =>
              have hn' : takesNumber (Reading.awaiting recorded s) letters = false := hn
              simp [readFrom_letters_ne_ok ht ha hn', Separable, ha, hn]
      | plain =>
          simp [readFrom_awaiting_plain ha, Separable, ha]

end Whole

end PointDriver.CommandLine

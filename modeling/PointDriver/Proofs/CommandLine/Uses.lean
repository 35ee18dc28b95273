import PointDriver.Proofs.CommandLine.Scanning

/-!
# Uses of options

An option can be used in several spellings: by its name or by its letter, with
the value as an argument of its own or attached, and the letter perhaps behind
letters of flags. What a use records does not depend on the spelling. Uses are
recorded in order, wherever an option still holds a value that is not checked.
-/

namespace PointDriver.CommandLine

/-- How a value follows its option. Behind a single dash, the letters of flags may come before
the letter of the option. -/
inductive Spelling where
  /-- The name, and the value as the next argument. -/
  | name
  /-- The name, an equals sign and the value. -/
  | nameEquals
  /-- The letter, and the value as the next argument. -/
  | letter (flags : List Spec)
  /-- The letter and the value. -/
  | letterAttached (flags : List Spec)
  /-- The letter, an equals sign and the value. -/
  | letterEquals (flags : List Spec)

/-- A use of an option. -/
inductive Use where
  | flag (s : Spec)
  /-- Flags by their letters. -/
  | letters (flags : List Spec)
  | value (spelling : Spelling) (s : Spec) (bytes : Bytes)
  | operand (s : Spec) (bytes : Bytes)

/-- The letters of options, as far as they have some. -/
def lettersOf (options : List Spec) : List Char := options.filterMap (·.letter)

/-- A dash and letters, with bytes behind them. -/
def lettersWord (options : List Spec) (behind : Bytes) : Bytes :=
  dash :: (Utf8.encodeChars (lettersOf options) ++ behind)

/-- Two dashes and a name, perhaps with a value. -/
def nameWord (s : Spec) (attached : Option Bytes) : Bytes :=
  dash :: dash :: (Utf8.encode s.name ++ attachment attached)

/-- The flags whose letters come first. -/
def Spelling.flags : Spelling → List Spec
  | name | nameEquals => []
  | letter flags | letterAttached flags | letterEquals flags => flags

/-- The arguments of an option with its value. -/
def Spelling.words (s : Spec) (value : Bytes) : Spelling → List Bytes
  | name => [nameWord s none, value]
  | nameEquals => [nameWord s (some value)]
  | letter flags => [lettersWord (flags ++ [s]) [], value]
  | letterAttached flags => [lettersWord (flags ++ [s]) value]
  | letterEquals flags => [lettersWord (flags ++ [s]) (equals :: value)]

namespace Use

/-- The arguments of a use. -/
def words : Use → List Bytes
  | flag s => [nameWord s none]
  | letters flags => [lettersWord flags []]
  | value spelling s bytes => spelling.words s bytes
  | operand _ bytes => [bytes]

/-- What a use records. -/
def occurrences : Use → List Occurrence
  | flag s => [⟨s, none⟩]
  | letters flags => flags.map (⟨·, none⟩)
  | value spelling s bytes => spelling.flags.map (⟨·, none⟩) ++ [⟨s, some bytes⟩]
  | operand s bytes => [⟨s, some bytes⟩]

end Use

/-- A table that has each option under its name and under its letter. -/
structure WellNamed (table : List Spec) : Prop where
  named : ∀ s ∈ table, named? table s.name = some s
  unambiguous : ∀ s ∈ table, Utf8.encode s.name ≠ [] ∧ equals ∉ Utf8.encode s.name
  lettered : ∀ s ∈ table, ∀ c, s.letter = some c → lettered? table c = some s
  visible : ∀ s ∈ table, ∀ c, s.letter = some c → c ≠ '-'

/-- A flag of the table that has a letter. -/
structure LetteredFlag (table : List Spec) (s : Spec) : Prop where
  mem : s ∈ table
  role : s.role = .flag
  letter : s.letter.isSome

/-- Whether the table has the letters that the spelling shows. -/
def Spelling.Shown (table : List Spec) (s : Spec) : Spelling → Prop
  | name | nameEquals => True
  | letter flags | letterAttached flags | letterEquals flags =>
      (∀ f ∈ flags, LetteredFlag table f) ∧ s.letter.isSome

/-- Whether the spelling leaves the value as it is. -/
def Spelling.Leaves (value : Bytes) : Spelling → Prop
  | name | letter _ => Word.ofBytes value = .plain
  | nameEquals | letterEquals _ => True
  | letterAttached _ => value ≠ [] ∧ value.head? ≠ some equals

instance (value : Bytes) : (spelling : Spelling) → Decidable (spelling.Leaves value)
  | .name | .letter _ => inferInstanceAs (Decidable (Word.ofBytes value = .plain))
  | .nameEquals | .letterEquals _ => instDecidableTrue
  | .letterAttached _ => inferInstanceAs (Decidable (value ≠ [] ∧ value.head? ≠ some equals))

/-- A use that the table and the operand have a place for. -/
inductive Use.Legal (table : List Spec) (operand : Option Spec) : Use → Prop
  | flag {s} (mem : s ∈ table) (role : s.role = .flag) : Legal table operand (.flag s)
  | letters {flags} (nonempty : flags ≠ []) (all : ∀ f ∈ flags, LetteredFlag table f) :
      Legal table operand (.letters flags)
  | value {spelling s bytes} (mem : s ∈ table) (takesValue : (Reading.valueOf s).isSome)
      (content : Reading.contentFault? s bytes = none) (shown : spelling.Shown table s)
      (leaves : spelling.Leaves bytes) : Legal table operand (.value spelling s bytes)
  | operand {s bytes} (declared : operand = some s) (once : Reading.mayRepeat s = false)
      (content : Reading.contentFault? s bytes = none) (plain : Word.ofBytes bytes = .plain) :
      Legal table operand (.operand s bytes)

/-- Only options that may be repeated are given again. -/
def Unrepeated (options : List Spec) : Prop :=
  options.Pairwise fun a b => a.name = b.name → Reading.mayRepeat b = true

instance (options : List Spec) : Decidable (Unrepeated options) :=
  inferInstanceAs (Decidable (options.Pairwise _))

/-- Nothing waits for a value, and settling what is pending records these occurrences. -/
structure Reading.AmountsTo (r : Reading) (recorded : List Occurrence) : Prop where
  waiting : r.waiting? = none
  settle : r.settle = .ok (.settled recorded)

section Given
variable {table : List Spec} {operand : Option Spec} {r : Reading} {recorded : List Occurrence}
  {s : Spec} {value : Bytes}

theorem amountsTo_settled (recorded : List Occurrence) :
    (Reading.settled recorded).AmountsTo recorded := ⟨rfl, rfl⟩

/-- An option that is not given again is not recorded yet, or it may be repeated. -/
theorem Unrepeated.fresh {behind : List Spec}
    (h : Unrepeated (recorded.map (·.option) ++ s :: behind)) :
    (Reading.settled recorded).has s.name = true → Reading.mayRepeat s = true := by
  intro hhas
  obtain ⟨o, ho, hname⟩ := List.any_eq_true.mp hhas
  have hpair := (List.pairwise_append.mp h).2.2 o.option (List.mem_map_of_mem ho) s
    List.mem_cons_self
  exact hpair (by simpa using hname)

theorem record_value
    (hnew : (Reading.settled recorded).has s.name = true → Reading.mayRepeat s = true)
    (hc : Reading.contentFault? s value = none) :
    (Reading.settled recorded).record ⟨s, some value⟩ =
      .ok (.settled (recorded ++ [⟨s, some value⟩])) := by
  have hmay : ((Reading.settled recorded).has s.name && !Reading.mayRepeat s) = false := by
    simpa using hnew
  simp only [Reading.record, hmay, Bool.false_eq_true, if_false, hc]
  rfl

/-- An option that holds its value amounts to the option recorded with it. -/
theorem amountsTo_holding
    (hnew : (Reading.settled recorded).has s.name = true → Reading.mayRepeat s = true)
    (hc : Reading.contentFault? s value = none) :
    (Reading.holding recorded s value).AmountsTo (recorded ++ [⟨s, some value⟩]) :=
  ⟨rfl, record_value hnew hc⟩

/-- An option is taken as it is after settling. -/
theorem give_of_amountsTo (hr : r.AmountsTo recorded) {attached : Option Bytes}
    (hs : (Reading.valueOf s).isSome ∨ attached = none) :
    r.give s attached = (Reading.settled recorded).give s attached := by
  cases hv : Reading.valueOf s <;> cases attached <;>
    simp_all [Reading.give, hr.settle, bind, Except.bind]

theorem give_value (hs : (Reading.valueOf s).isSome)
    (hnew : (Reading.settled recorded).has s.name = true → Reading.mayRepeat s = true)
    (hc : Reading.contentFault? s value = none) :
    (Reading.settled recorded).give s (some value) =
      .ok (.settled (recorded ++ [⟨s, some value⟩])) := by
  obtain ⟨v, hv⟩ := Option.isSome_iff_exists.mp hs
  simp only [Reading.give, hv, Reading.settle_settled, bind, Except.bind, record_value hnew hc]

theorem give_awaiting (hs : (Reading.valueOf s).isSome) :
    (Reading.settled recorded).give s none = .ok (.awaiting recorded s) := by
  obtain ⟨v, hv⟩ := Option.isSome_iff_exists.mp hs
  simp only [Reading.give, hv, Reading.settle_settled, bind, Except.bind]
  rfl

theorem give_flag (hs : s.role = .flag)
    (hnew : (Reading.settled recorded).has s.name = true → Reading.mayRepeat s = true) :
    (Reading.settled recorded).give s none = .ok (.settled (recorded ++ [⟨s, none⟩])) := by
  have hv : Reading.valueOf s = none := by simp [Reading.valueOf, hs]
  have hmay : Reading.mayRepeat s = false := by simp [Reading.mayRepeat, hv]
  have hhas : (Reading.settled recorded).has s.name = false := by
    simpa [hmay] using hnew
  simp only [Reading.give, hv, hs, Reading.settle_settled, bind, Except.bind, hhas,
    Bool.false_eq_true, if_false]
  rfl

/-- The operand is still to come unless it is recorded after settling. -/
theorem lacks_of_amountsTo (hr : r.AmountsTo recorded)
    (h : (Reading.settled recorded).has s.name = false) : r.lacks s = true := by
  have hsettle := hr.settle
  obtain ⟨before, pending⟩ := r
  cases pending with
  | none =>
      obtain rfl : before = recorded := congrArg Reading.recorded (Except.ok.inj hsettle)
      simpa [Reading.lacks, Reading.has, Reading.settled] using h
  | some o =>
      -- Settling has added what is pending to what was recorded.
      have hall : before ++ [o] = recorded := by
        simp only [Reading.settle, Reading.record] at hsettle
        split at hsettle
        · cases hsettle
        split at hsettle
        · cases hsettle
        split at hsettle
        · cases hsettle
        · exact congrArg Reading.recorded (Except.ok.inj hsettle)
      subst hall
      simpa [Reading.lacks, Reading.has, Reading.settled, or_imp, forall_and] using h

end Given

/-- The value that bytes behind a letter attach to its option. -/
def attachedBehind : Bytes → Option Bytes
  | [] => none
  | b :: rest => some (if b == equals then rest else b :: rest)

section Words
variable {table : List Spec} {operand : Option Spec} {r r' : Reading}
  {recorded : List Occurrence} {s : Spec} {value : Bytes}

/-- A name of the table is read as its option. -/
theorem scan_nameWord (ht : WellNamed table) (hs : s ∈ table) {attached : Option Bytes}
    (hg : r.give s attached = .ok r') (rest : List Bytes) :
    scan table operand r (nameWord s attached :: rest) = scan table operand r' rest := by
  obtain ⟨hne, heq⟩ := ht.unambiguous s hs
  have hword : Word.ofBytes (nameWord s attached) = .long (Utf8.encode s.name) attached :=
    Word.ofBytes_long heq (Or.inl hne)
  have hgive : r.giveNamed table (Utf8.encode s.name) attached = .ok r' := by
    simp only [Reading.giveNamed, Utf8.decode?_encode, Option.bind_some, ht.named s hs, hg]
  simp only [scan, hword, hgive]
  rfl

/-- Letters are taken one by one where no option waits for a value. -/
theorem scan_lettersWord (ht : WellNamed table) {options : List Spec} (hne : options ≠ [])
    (hall : ∀ s ∈ options, s ∈ table ∧ s.letter.isSome) (behind : Bytes)
    (hr : r.waiting? = none)
    (hg : r.giveLetters table (lettersOf options ++ (Utf8.scan 0 behind).1)
      (Utf8.scan 0 behind).2 = .ok r') (rest : List Bytes) :
    scan table operand r (lettersWord options behind :: rest) = scan table operand r' rest := by
  have hword : Word.ofBytes (lettersWord options behind) =
      .letters (Utf8.encodeChars (lettersOf options) ++ behind) := by
    obtain ⟨s, more, rfl⟩ := List.exists_cons_of_ne_nil hne
    obtain ⟨hmem, hletter⟩ := hall s List.mem_cons_self
    obtain ⟨c, hc⟩ := Option.isSome_iff_exists.mp hletter
    have hletters : lettersOf (s :: more) = c :: lettersOf more := by simp [lettersOf, hc]
    refine Word.ofBytes_eq_letters_iff.mpr ⟨rfl, ?_, ?_⟩
    · simp [hletters]
    · rw [hletters, List.head?_append, Option.or_of_isSome (by simp)]
      intro hhead
      exact ht.visible s hmem c hc
        (Option.some.inj ((Utf8.head?_encodeChars (a := '-') (by decide) _).mp hhead))
  have htakes : takesNumber r (Utf8.encodeChars (lettersOf options) ++ behind) = false := by
    simp [takesNumber, hr]
  simp only [scan, hword, htakes, Bool.false_eq_true, if_false, Utf8.scan_encodeChars, hg]
  rfl

/-- A plain argument is the value of the option that waits for it. -/
theorem scan_plain (h : Word.ofBytes value = .plain) (rest : List Bytes) :
    scan table operand (.awaiting recorded s) (value :: rest) =
      scan table operand (.holding recorded s value) rest := by
  simp only [scan, h, Reading.waiting?_awaiting]
  rfl

/-- The letters of flags record the flags. -/
theorem giveLetters_flags (ht : WellNamed table) {flags : List Spec}
    (hflags : ∀ f ∈ flags, LetteredFlag table f) (hr : r.AmountsTo recorded)
    {behind : List Spec}
    (hnew : Unrepeated (recorded.map (·.option) ++ (flags ++ behind))) (cs : List Char)
    (broken : Bytes) :
    ∃ r' : Reading, r'.AmountsTo (recorded ++ flags.map (⟨·, none⟩)) ∧
      r.giveLetters table (lettersOf flags ++ cs) broken = r'.giveLetters table cs broken := by
  induction flags generalizing r recorded with
  | nil => exact ⟨r, by simpa using hr, rfl⟩
  | cons f flags ih =>
      obtain ⟨⟨hmem, hrole, hletter⟩, hrest⟩ := List.forall_mem_cons.mp hflags
      obtain ⟨c, hc⟩ := Option.isSome_iff_exists.mp hletter
      have hvalue : Reading.valueOf f = none := by simp [Reading.valueOf, hrole]
      have hgive : r.give f none = .ok (.settled (recorded ++ [⟨f, none⟩])) :=
        (give_of_amountsTo hr (Or.inr rfl)).trans (give_flag hrole hnew.fresh)
      obtain ⟨r', hr', hnext⟩ := ih hrest (amountsTo_settled (recorded ++ [⟨f, none⟩]))
        (by simpa using hnew)
      refine ⟨r', by simpa using hr', ?_⟩
      have hletters : lettersOf (f :: flags) = c :: lettersOf flags := by simp [lettersOf, hc]
      rw [hletters, List.cons_append, Reading.giveLetters, ht.lettered f hmem c hc]
      simp only [hvalue, hgive]
      exact hnext

theorem giveLetters_value (ht : WellNamed table) (hs : s ∈ table) {c : Char}
    (hc : s.letter = some c) (hv : (Reading.valueOf s).isSome) (r : Reading) (behind : Bytes) :
    r.giveLetters table (c :: (Utf8.scan 0 behind).1) (Utf8.scan 0 behind).2 =
      r.give s (attachedBehind behind) := by
  obtain ⟨v, hv⟩ := Option.isSome_iff_exists.mp hv
  rw [Reading.giveLetters, ht.lettered s hs c hc]
  simp only [hv, Utf8.encodeChars_scan]
  cases behind <;> rfl

/-- The letters of flags record the flags, and the letter behind them names its option. -/
theorem scan_lettered (ht : WellNamed table) (hs : s ∈ table) (hl : s.letter.isSome)
    (hv : (Reading.valueOf s).isSome) {flags : List Spec}
    (hflags : ∀ f ∈ flags, LetteredFlag table f) (hr : r.AmountsTo recorded)
    (hnew : Unrepeated (recorded.map (·.option) ++ (flags ++ [s]))) (behind : Bytes)
    (hg : (Reading.settled (recorded ++ flags.map (⟨·, none⟩))).give s (attachedBehind behind) =
      .ok r') (rest : List Bytes) :
    scan table operand r (lettersWord (flags ++ [s]) behind :: rest) =
      scan table operand r' rest := by
  obtain ⟨c, hc⟩ := Option.isSome_iff_exists.mp hl
  have hletters : lettersOf (flags ++ [s]) = lettersOf flags ++ [c] := by simp [lettersOf, hc]
  have hall : ∀ o ∈ flags ++ [s], o ∈ table ∧ o.letter.isSome := by
    intro o ho
    rcases List.mem_append.mp ho with ho | ho
    · exact ⟨(hflags o ho).mem, (hflags o ho).letter⟩
    · obtain rfl := List.mem_singleton.mp ho
      exact ⟨hs, hl⟩
  obtain ⟨between, hbetween, hgive⟩ := giveLetters_flags ht hflags hr hnew
    (c :: (Utf8.scan 0 behind).1) (Utf8.scan 0 behind).2
  refine scan_lettersWord ht (by simp) hall behind hr.waiting ?_ rest
  rw [hletters, List.append_assoc, List.singleton_append, hgive, giveLetters_value ht hs hc hv,
    give_of_amountsTo hbetween (Or.inl hv), hg]

/-- An option with its value is recorded, however it is spelled. -/
theorem scan_spelling (ht : WellNamed table) (hs : s ∈ table) (hv : (Reading.valueOf s).isSome)
    (hc : Reading.contentFault? s value = none) {spelling : Spelling}
    (hshown : spelling.Shown table s) (hleaves : spelling.Leaves value) (hr : r.AmountsTo recorded)
    (hnew : Unrepeated (recorded.map (·.option) ++ (spelling.flags ++ [s])))
    (rest : List Bytes) :
    ∃ r' : Reading,
      r'.AmountsTo (recorded ++ (spelling.flags.map (⟨·, none⟩) ++ [⟨s, some value⟩])) ∧
      scan table operand r (spelling.words s value ++ rest) = scan table operand r' rest := by
  -- The flags in front are recorded by then.
  have hfresh : (Reading.settled (recorded ++ spelling.flags.map (⟨·, none⟩))).has s.name = true →
      Reading.mayRepeat s = true :=
    @Unrepeated.fresh _ _ [] (by simpa [Function.comp_def] using hnew)
  have hholding := amountsTo_holding hfresh hc
  have hsettled := amountsTo_settled
    (recorded ++ spelling.flags.map (⟨·, none⟩) ++ [⟨s, some value⟩])
  have hgiven := give_value hv hfresh hc
  rw [List.append_assoc] at hholding hsettled hgiven
  cases spelling with
  | name =>
      simp only [Spelling.flags, List.map_nil, List.append_nil, List.nil_append] at hholding ⊢
      refine ⟨_, hholding, ?_⟩
      have hgive := (give_of_amountsTo hr (Or.inr rfl)).trans (give_awaiting hv)
      rw [Spelling.words, List.cons_append, scan_nameWord ht hs hgive]
      exact scan_plain hleaves rest
  | nameEquals =>
      simp only [Spelling.flags, List.map_nil, List.append_nil,
        List.nil_append] at hsettled hgiven ⊢
      refine ⟨_, hsettled, ?_⟩
      exact scan_nameWord ht hs ((give_of_amountsTo hr (Or.inl hv)).trans hgiven) rest
  | letter flags =>
      obtain ⟨hflags, hl⟩ := hshown
      refine ⟨_, hholding, ?_⟩
      rw [Spelling.words, List.cons_append,
        scan_lettered ht hs hl hv hflags hr hnew [] (give_awaiting hv)]
      exact scan_plain hleaves rest
  | letterAttached flags =>
      obtain ⟨hflags, hl⟩ := hshown
      obtain ⟨hne, hhead⟩ := hleaves
      have hattached : attachedBehind value = some value := by
        obtain ⟨b, more, rfl⟩ := List.exists_cons_of_ne_nil hne
        have hb : b ≠ equals := by simpa using hhead
        simp [attachedBehind, hb]
      refine ⟨_, hsettled, ?_⟩
      exact scan_lettered ht hs hl hv hflags hr hnew value (by rw [hattached]; exact hgiven) rest
  | letterEquals flags =>
      obtain ⟨hflags, hl⟩ := hshown
      refine ⟨_, hsettled, ?_⟩
      exact scan_lettered ht hs hl hv hflags hr hnew (equals :: value) hgiven rest

/-- A use is recorded wherever nothing waits for a value. -/
theorem scan_use (ht : WellNamed table) {u : Use} (hu : u.Legal table operand)
    (hr : r.AmountsTo recorded)
    (hnew : Unrepeated (recorded.map (·.option) ++ u.occurrences.map (·.option)))
    (rest : List Bytes) :
    ∃ r' : Reading, r'.AmountsTo (recorded ++ u.occurrences) ∧
      scan table operand r (u.words ++ rest) = scan table operand r' rest := by
  cases hu with
  | flag mem role =>
      have hgive := (give_of_amountsTo hr (Or.inr rfl)).trans (give_flag role hnew.fresh)
      exact ⟨_, amountsTo_settled _, scan_nameWord ht mem hgive rest⟩
  | @letters flags nonempty all =>
      have hflags : Unrepeated (recorded.map (·.option) ++ (flags ++ [])) := by
        simpa [Use.occurrences, Function.comp_def] using hnew
      obtain ⟨r', hr', hgive⟩ := giveLetters_flags ht all hr hflags [] []
      exact ⟨r', hr', scan_lettersWord ht nonempty (fun f hf => ⟨(all f hf).mem, (all f hf).letter⟩)
        [] hr.waiting hgive rest⟩
  | value mem takesValue content shown leaves =>
      refine scan_spelling ht mem takesValue content shown leaves hr ?_ rest
      simpa [Use.occurrences, Function.comp_def] using hnew
  | @operand s bytes declared once content plain =>
      subst declared
      have hfresh := hnew.fresh
      have hhas : (Reading.settled recorded).has s.name = false := by
        simpa [once] using hfresh
      refine ⟨.holding recorded s bytes, amountsTo_holding hfresh content, ?_⟩
      simp only [Use.words, List.singleton_append, scan, plain, hr.waiting,
        lacks_of_amountsTo hr hhas, if_true, hr.settle]
      rfl

/-- Uses are recorded in order. -/
theorem scan_uses (ht : WellNamed table) {uses : List Use}
    (huses : ∀ u ∈ uses, u.Legal table operand) (hr : r.AmountsTo recorded)
    (hnew : Unrepeated (recorded.map (·.option) ++
      (uses.flatMap Use.occurrences).map (·.option))) (rest : List Bytes) :
    ∃ r' : Reading, r'.AmountsTo (recorded ++ uses.flatMap Use.occurrences) ∧
      scan table operand r (uses.flatMap Use.words ++ rest) = scan table operand r' rest := by
  induction uses generalizing r recorded with
  | nil => exact ⟨r, by simpa using hr, rfl⟩
  | cons u uses ih =>
      obtain ⟨hu, hrest⟩ := List.forall_mem_cons.mp huses
      have hfirst : Unrepeated (recorded.map (·.option) ++ u.occurrences.map (·.option)) := by
        refine List.Pairwise.sublist ?_ hnew
        rw [List.flatMap_cons, List.map_append, ← List.append_assoc]
        exact List.sublist_append_left _ _
      obtain ⟨between, hbetween, hscan⟩ :=
        scan_use ht hu hr hfirst (uses.flatMap Use.words ++ rest)
      obtain ⟨r', hr', hnext⟩ := ih hrest hbetween (by simpa using hnew)
      refine ⟨r', by simpa using hr', ?_⟩
      rw [List.flatMap_cons, List.append_assoc, hscan, hnext]

/-- Options with their values, each as one argument, are recorded in order. -/
theorem scan_attachedWords (ht : WellNamed table) {given : List (Spec × Bytes)}
    (hgiven : ∀ g ∈ given, (Use.value .nameEquals g.1 g.2).Legal table operand)
    (honce : Unrepeated (given.map (·.1))) (rest : List Bytes) :
    ∃ r' : Reading, r'.AmountsTo (occurrences given) ∧
      scan table operand (.settled []) (attachedWords given ++ rest) =
        scan table operand r' rest := by
  let uses := given.map fun g => Use.value .nameEquals g.1 g.2
  have hwords : attachedWords given = uses.flatMap Use.words := by
    rw [List.flatMap_map]
    exact List.map_eq_flatMap
  have hoccurrences : occurrences given = uses.flatMap Use.occurrences := by
    rw [List.flatMap_map]
    exact List.map_eq_flatMap
  rw [hwords, hoccurrences]
  refine scan_uses ht (List.forall_mem_map.mpr hgiven) (amountsTo_settled []) ?_ rest
  rw [← hoccurrences]
  simpa [occurrences, Function.comp_def] using honce

end Words

end PointDriver.CommandLine

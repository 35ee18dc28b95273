import Mathlib.Data.List.TakeWhile
import PointDriver.Template.Tag

/-!
# Tags that hold one name

The built-in templates use three kinds of tags: a name that is printed, the
start of a loop over a named list, and the end of a loop. Whatever follows the
closing braces, such a tag is read as what it says and the rest is left.
-/

namespace PointDriver.Template

/-- Words with a meaning of their own at the start of an argument. -/
def argumentWords : List String := ["as", "else", "null", "true", "false"]

/-- A name that a tag reads as a reference: small letters and underscores, and no word
that means something else there. -/
structure Referable (name : String) : Prop where
  nonempty : name.toList ≠ []
  letters : name.toList.all (fun c => c.isLower || c == '_') = true
  not_helper : name ∉ helperNames
  not_word : name ∉ argumentWords

/-- The reference that a name alone stands for. -/
def refersTo (name : String) : Reference := ⟨.frame, 0, [name].filter (· != "this")⟩

variable {name start : String} {cs rest : List Char}

theorem after?_eq_some_iff : after? start cs = some rest ↔ cs = start.toList ++ rest := by
  have hl : start.length = start.toList.length := String.length_toList.symm
  unfold after?
  constructor
  · intro h
    split at h
    · next hp =>
        obtain ⟨more, rfl⟩ := List.isPrefixOf_iff_prefix.mp hp
        rw [hl, List.drop_left] at h
        rw [Option.some.inj h]
    · cases h
  · rintro rfl
    have hp : start.toList.isPrefixOf (start.toList ++ rest) = true :=
      List.isPrefixOf_iff_prefix.mpr (List.prefix_append _ _)
    rw [if_pos hp, hl, List.drop_left]

theorem after?_of_head_ne {c d : Char} {more : List Char} (hs : start.toList = d :: more)
    (h : c ≠ d) : after? start (c :: cs) = none := by
  cases ha : after? start (c :: cs) with
  | none => rfl
  | some rest =>
      rw [after?_eq_some_iff, hs] at ha
      exact absurd (List.cons.inj ha).1 h

/-- Characters that a tag gives a meaning of their own. -/
def tagMarks : List Char :=
  ['"', '\'', '[', '\x7b', '-', '.', '/', '@', '~', '!', '&', '#', '>', '^', '(', ' ', '\t', '\n',
    '\r']

/-- A character that can only start or continue a name. -/
structure Plain (c : Char) : Prop where
  symbol : isSymbol c = true
  not_digit : c.isDigit = false
  not_mark : c ∉ tagMarks

theorem Plain.ne_mark {c d : Char} (h : Plain c) (hd : d ∈ tagMarks) : c ≠ d := by
  rintro rfl
  exact h.not_mark hd

namespace Referable

theorem plain_of_letter {c : Char} (h : c.isLower = true ∨ c = '_') : Plain c := by
  rcases h with h | rfl
  · have hr : 97 ≤ c.toNat ∧ c.toNat ≤ 122 := by
      have hlower : (decide (97 ≤ c.val) && decide (c.val ≤ 122)) = true := h
      simpa [UInt32.le_iff_toNat_le] using hlower
    refine ⟨?_, ?_, ?_⟩
    · have halnum : c.isAlphanum = (c.isUpper || c.isLower || c.isDigit) := rfl
      simp [isSymbol, halnum, h]
    · cases hd : c.isDigit with
      | false => rfl
      | true =>
          have : 48 ≤ c.toNat ∧ c.toNat ≤ 57 := by
            simpa [Char.isDigit, UInt32.le_iff_toNat_le] using hd
          omega
    · intro hm
      have hmarks : tagMarks.all (fun x => !x.isLower) = true := by decide
      have hc := List.all_eq_true.mp hmarks c hm
      simp [h] at hc
  · exact ⟨by decide, by decide, by decide⟩

theorem plain_of_mem (h : Referable name) {c : Char} (hc : c ∈ name.toList) : Plain c := by
  apply plain_of_letter
  simpa using List.all_eq_true.mp h.letters c hc

theorem takeWhile_symbol (h : Referable name) :
    (name.toList ++ '\x7d' :: rest).takeWhile isSymbol = name.toList := by
  rw [List.takeWhile_append_of_pos fun c hc => (h.plain_of_mem hc).symbol,
    List.takeWhile_cons_of_neg (by decide), List.append_nil]

theorem dropWhile_symbol (h : Referable name) :
    (name.toList ++ '\x7d' :: rest).dropWhile isSymbol = '\x7d' :: rest := by
  rw [List.dropWhile_append_of_pos fun c hc => (h.plain_of_mem hc).symbol,
    List.dropWhile_cons_of_neg (by decide)]

theorem exists_cons (h : Referable name) (rest : List Char) :
    ∃ c more, name.toList ++ '\x7d' :: rest = c :: more ∧ Plain c := by
  obtain ⟨c, more, hc⟩ := List.exists_cons_of_ne_nil h.nonempty
  refine ⟨c, more ++ '\x7d' :: rest, by rw [hc, List.cons_append], ?_⟩
  exact h.plain_of_mem (hc ▸ List.mem_cons_self)

theorem skipBlanks_name (h : Referable name) :
    skipBlanks (name.toList ++ '\x7d' :: rest) = name.toList ++ '\x7d' :: rest := by
  obtain ⟨c, more, hc, hp⟩ := h.exists_cons rest
  rw [hc, skipBlanks, List.dropWhile_cons_of_neg]
  simp [hp.ne_mark (d := ' ') (by decide), hp.ne_mark (d := '\t') (by decide),
    hp.ne_mark (d := '\n') (by decide), hp.ne_mark (d := '\r') (by decide)]

theorem identifier?_name (h : Referable name) :
    identifier? (name.toList ++ '\x7d' :: rest) = some (name, '\x7d' :: rest) := by
  have he : name.toList.isEmpty = false := by
    simpa using h.nonempty
  simp only [identifier?, h.takeWhile_symbol, h.dropWhile_symbol, he, String.ofList_toList,
    Bool.false_eq_true, if_false]

/-- A name starts with no other word. -/
theorem after?_word (h : Referable name) {word : String} {behind : List Char}
    (hw : word.toList.all isSymbol = true) (hne : name ≠ word)
    (ha : after? word (name.toList ++ '\x7d' :: rest) = some behind) :
    behind.head?.any isSymbol = true := by
  rw [after?_eq_some_iff] at ha
  cases behind with
  | nil =>
      have hm : '\x7d' ∈ word.toList := by
        rw [← List.append_nil word.toList, ← ha]
        simp
      exact absurd (List.all_eq_true.mp hw _ hm) (by decide)
  | cons c more =>
      cases hc : isSymbol c with
      | true => simp [hc]
      | false =>
          have ht := congrArg (List.takeWhile isSymbol) ha
          rw [h.takeWhile_symbol, List.takeWhile_append_of_pos (List.all_eq_true.mp hw),
            List.takeWhile_cons_of_neg (by simp [hc]), List.append_nil] at ht
          exact absurd (String.toList_inj.mp ht) hne

theorem keyword?_name (h : Referable name) {word : String}
    (hw : word.toList.all isSymbol = true) (hne : name ≠ word) :
    keyword? word (name.toList ++ '\x7d' :: rest) = none := by
  unfold keyword?
  cases ha : after? word (name.toList ++ '\x7d' :: rest) with
  | none => rfl
  | some behind => simp [Option.filter, h.after?_word hw hne ha]

/-- The word for the current value is a name of its own, not a step to a key. -/
theorem after?_this (h : Referable name) :
    (after? "this" (name.toList ++ '\x7d' :: rest)).bind separator? = none := by
  cases ha : after? "this" (name.toList ++ '\x7d' :: rest) with
  | none => rfl
  | some behind =>
      have hb : behind.head?.any isSymbol = true ∨ behind = '\x7d' :: rest := by
        by_cases hn : name = "this"
        · subst hn
          rw [after?_eq_some_iff] at ha
          exact Or.inr (List.append_cancel_left ha).symm
        · exact Or.inl (h.after?_word (by decide) hn ha)
      rcases hb with hb | rfl
      · cases behind with
        | nil => rfl
        | cons c more =>
            have hc : isSymbol c = true := by simpa using hb
            have hd : c ≠ '.' ∧ c ≠ '/' := by
              constructor <;> (rintro rfl; exact absurd hc (by decide))
            simp [separator?, hd]
      · rfl

theorem after?_mark (h : Referable name) {d : Char} {more : List Char}
    (hs : start.toList = d :: more) (hd : d ∈ tagMarks) :
    after? start (name.toList ++ '\x7d' :: rest) = none := by
  obtain ⟨c, behind, hc, hp⟩ := h.exists_cons rest
  rw [hc]
  exact after?_of_head_ne hs (hp.ne_mark hd)

theorem reference?_name (h : Referable name) :
    reference? (name.toList ++ '\x7d' :: rest) = some (refersTo name, '\x7d' :: rest) := by
  have hdot : after? "./" (name.toList ++ '\x7d' :: rest) = none :=
    h.after?_mark (d := '.') rfl (by decide)
  have hroot : after? "@root" (name.toList ++ '\x7d' :: rest) = none :=
    h.after?_mark (d := '@') rfl (by decide)
  have hat : after? "@" (name.toList ++ '\x7d' :: rest) = none :=
    h.after?_mark (d := '@') rfl (by decide)
  have hups : after? ".." (name.toList ++ '\x7d' :: rest) = none :=
    h.after?_mark (d := '.') rfl (by decide)
  have hsteps : ∀ fuel, steps fuel (name.toList ++ '\x7d' :: rest) =
      (0, name.toList ++ '\x7d' :: rest) := by
    intro fuel
    cases fuel with
    | zero => rfl
    | succ fuel => simp [steps, hups]
  have hkey : key? (name.toList ++ '\x7d' :: rest) = some (name, '\x7d' :: rest) := by
    obtain ⟨c, more, hc, hp⟩ := h.exists_cons rest
    unfold key?
    split
    · next he =>
        rw [hc] at he
        exact absurd (List.cons.inj he).1 (hp.ne_mark (by decide))
    · exact h.identifier?_name
  have hmore : ∀ fuel, moreKeys fuel ('\x7d' :: rest) = ([], '\x7d' :: rest) := by
    intro fuel
    cases fuel <;> rfl
  simp [reference?, h.after?_this, hdot, hroot, hat, hsteps, hkey, hmore, refersTo]

theorem literal?_name (h : Referable name) :
    literal? (name.toList ++ '\x7d' :: rest) = none := by
  obtain ⟨c, more, hc, hp⟩ := h.exists_cons rest
  have hword : ∀ word ∈ argumentWords, keyword? word (name.toList ++ '\x7d' :: rest) = none := by
    intro word hw
    have hs : argumentWords.all (fun word => word.toList.all isSymbol) = true := by decide
    apply h.keyword?_name (List.all_eq_true.mp hs word hw)
    rintro rfl
    exact h.not_word hw
  have hn : number? (name.toList ++ '\x7d' :: rest) = none := by
    rw [hc]
    have hminus : c ≠ '-' := hp.ne_mark (by decide)
    have hpoint : c ≠ '.' := hp.ne_mark (by decide)
    have hnum : numeral (c :: more) = ([], c :: more) := by
      simp [numeral, hminus, hpoint, hp.not_digit]
    simp [number?, hnum]
  unfold literal?
  split
  · next he => exact absurd (List.cons.inj (hc.symm.trans he)).1 (hp.ne_mark (by decide))
  · next he => exact absurd (List.cons.inj (hc.symm.trans he)).1 (hp.ne_mark (by decide))
  · next he => exact absurd (List.cons.inj (hc.symm.trans he)).1 (hp.ne_mark (by decide))
  · next he => exact absurd (List.cons.inj (hc.symm.trans he)).1 (hp.ne_mark (by decide))
  · rw [hword "null" (by decide), hword "true" (by decide), hword "false" (by decide)]
    exact hn

theorem atKeyword_name (h : Referable name) :
    atKeyword (name.toList ++ '\x7d' :: rest) = false := by
  have has : name ≠ "as" := fun he => h.not_word (by simp [argumentWords, he])
  have helse : name ≠ "else" := fun he => h.not_word (by simp [argumentWords, he])
  simp [atKeyword, h.keyword?_name (by decide) has, h.keyword?_name (by decide) helse]

theorem argument?_name (h : Referable name) (fuel : Nat) :
    argument? (fuel + 1) (name.toList ++ '\x7d' :: rest) =
      some (.reference (refersTo name), '\x7d' :: rest) := by
  simp [argument?, h.atKeyword_name, h.literal?_name, h.reference?_name]

end Referable

theorem argument?_brace (fuel : Nat) : argument? fuel ('\x7d' :: rest) = none := by
  cases fuel with
  | zero => rfl
  | succ fuel =>
      have hl : literal? ('\x7d' :: rest) = none := rfl
      have hr : reference? ('\x7d' :: rest) = none := rfl
      have hc : call? fuel ('\x7d' :: rest) = none := by
        cases fuel <;> rfl
      have hk : atKeyword ('\x7d' :: rest) = false := rfl
      simp [argument?, hl, hr, hc, hk]

theorem option?_brace (fuel : Nat) : option? fuel ('\x7d' :: rest) = none := by
  cases fuel <;> rfl

theorem arguments_brace (fuel : Nat) :
    arguments fuel ('\x7d' :: rest) = ([], [], '\x7d' :: rest) := by
  have hs : skipBlanks ('\x7d' :: rest) = '\x7d' :: rest := rfl
  cases fuel with
  | zero => rfl
  | succ fuel => simp [arguments, hs, option?_brace, argument?_brace]

/-- A tag of the kinds that the built-in templates use. -/
inductive Mark where
  | output (name : String)
  /-- The start of a loop over a named list. -/
  | loop (list : String)
  /-- The end of a loop. -/
  | close
  deriving DecidableEq, Repr

namespace Mark

/-- The tag behind its opening braces, without the closing ones. -/
def inside : Mark → String
  | output name => name
  | loop list => "#each " ++ list
  | close => "/each"

/-- A loop over a named list. -/
def loopOpening (list : String) : Opening :=
  ⟨"each", [.reference (refersTo list)], [], []⟩

/-- The tag as it is read. -/
def tag : Mark → Tag
  | output name => .output (.reference (refersTo name))
  | loop list => .opening (loopOpening list)
  | close => .closing "each"

/-- The names in the tag are names. -/
def IsRead : Mark → Prop
  | output name => Referable name
  | loop list => Referable list
  | close => True

theorem close?_braces : close? "\x7d\x7d" ('\x7d' :: '\x7d' :: rest) = some (false, rest) := by
  have ha : after? "\x7d\x7d" ('\x7d' :: '\x7d' :: rest) = some rest :=
    after?_eq_some_iff.mpr rfl
  have hs : skipBlanks ('\x7d' :: '\x7d' :: rest) = '\x7d' :: '\x7d' :: rest := rfl
  have ht : tilde ('\x7d' :: '\x7d' :: rest) = (false, '\x7d' :: '\x7d' :: rest) := rfl
  simp [close?, ht, hs, ha]

theorem printed?_name {name : String} (h : Referable name) :
    printed? (name.toList ++ '\x7d' :: rest) =
      some (.reference (refersTo name), '\x7d' :: rest) := by
  have hshown : (name.toList ++ '\x7d' :: rest).take
      ((name.toList ++ '\x7d' :: rest).length - ('\x7d' :: rest).length) = name.toList := by
    rw [List.length_append, Nat.add_sub_cancel, List.take_left]
  simp only [printed?, h.skipBlanks_name, h.identifier?_name, h.reference?_name, arguments_brace,
    Option.bind_some, List.isEmpty_nil, Bool.and_self, if_true, hshown, String.ofList_toList]
  rw [if_neg (by simpa using h.not_helper)]

theorem arguments_name {name : String} (h : Referable name) (fuel : Nat) :
    arguments (fuel + 2) (' ' :: (name.toList ++ '\x7d' :: rest)) =
      ([.reference (refersTo name)], [], '\x7d' :: rest) := by
  have hs : skipBlanks (' ' :: (name.toList ++ '\x7d' :: rest)) =
      name.toList ++ '\x7d' :: rest := h.skipBlanks_name
  have ho : option? (fuel + 1) (name.toList ++ '\x7d' :: rest) = none := by
    have he : after? "=" (skipBlanks ('\x7d' :: rest)) = none := rfl
    simp [option?, h.identifier?_name, he]
  have hb : arguments (fuel + 1) ('\x7d' :: rest) = ([], [], '\x7d' :: rest) := arguments_brace _
  rw [arguments.eq_def]
  simp only [hs, ho, h.argument?_name, hb]

theorem opening?_loop {list : String} (h : Referable list) :
    opening? ("each ".toList ++ (list.toList ++ '\x7d' :: rest)) =
      some (loopOpening list, '\x7d' :: rest) := by
  have hi : identifier? (skipBlanks ("each ".toList ++ (list.toList ++ '\x7d' :: rest))) =
      some ("each", ' ' :: (list.toList ++ '\x7d' :: rest)) := rfl
  have hn : blockNames? ('\x7d' :: rest) = none := rfl
  rw [opening?, hi]
  simp [arguments_name h, hn, loopOpening]

/-- A tag is read as what it says, and what follows its braces is left. -/
theorem tag?_inside {mark : Mark} (h : mark.IsRead) :
    tag? (mark.inside.toList ++ '\x7d' :: '\x7d' :: rest) =
      some (⟨mark.tag, false, false⟩, rest) := by
  have hskip : ∀ c more, c ∉ [' ', '\t', '\n', '\r'] → skipBlanks (c :: more) = c :: more := by
    intro c more hc
    rw [skipBlanks, List.dropWhile_cons_of_neg]
    simpa [and_assoc] using hc
  have htilde : ∀ c more, c ∉ ['~', ' ', '\t', '\n', '\r'] →
      tilde (c :: more) = (false, c :: more) := by
    intro c more hc
    rw [List.mem_cons, not_or] at hc
    simp [tilde, hskip c more hc.2, hc.1]
  cases mark with
  | output name =>
      obtain ⟨c, more, hc, hp⟩ := Referable.exists_cons h ('\x7d' :: rest)
      have hprinted : printed? (name.toList ++ '\x7d' :: '\x7d' :: rest) =
          some (.reference (refersTo name), '\x7d' :: '\x7d' :: rest) := printed?_name h
      have hcaret : after? "^" (name.toList ++ '\x7d' :: '\x7d' :: rest) = none :=
        Referable.after?_mark h (d := '^') rfl (by decide)
      have helse : keyword? "else" (name.toList ++ '\x7d' :: '\x7d' :: rest) = none := by
        apply Referable.keyword?_name h (by decide)
        rintro rfl
        exact h.not_word (by decide)
      change tag? (name.toList ++ '\x7d' :: '\x7d' :: rest) = _
      rw [hc] at hprinted hcaret helse ⊢
      have hne : ∀ d ∈ tagMarks, c ≠ d := fun d hd => hp.ne_mark hd
      simp [tagMarks] at hne
      simp [tag?, htilde, hskip, hne, hprinted, hcaret, helse, close?_braces, tag]
  | loop list =>
      rw [inside, String.toList_append, List.append_assoc]
      change tag? ('#' :: ("each ".toList ++ (list.toList ++ '\x7d' :: '\x7d' :: rest))) = _
      have ho : opening? ("each ".toList ++ (list.toList ++ '\x7d' :: '\x7d' :: rest)) =
          some (loopOpening list, '\x7d' :: '\x7d' :: rest) := opening?_loop h
      simp only [tag?, htilde '#' _ (by decide), hskip '#' _ (by decide), ho]
      simp [close?_braces, tag]
  | close =>
      change tag? ('/' :: ("each".toList ++ '\x7d' :: '\x7d' :: rest)) = _
      have hi : identifier? (skipBlanks ("each".toList ++ '\x7d' :: '\x7d' :: rest)) =
          some ("each", '\x7d' :: '\x7d' :: rest) := rfl
      simp only [tag?, htilde '/' _ (by decide), hskip '/' _ (by decide), hi]
      simp [close?_braces, tag]

end Mark

end PointDriver.Template

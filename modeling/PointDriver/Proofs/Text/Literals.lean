import PointDriver.Yaml.Scalar

/-!
# Texts between quotes

A text between double quotes is read piece by piece up to the closing quote. A
piece is a character that stands for itself, or a longer spelling of one
character or of none. So a text that is put between quotes as it is can be read
as itself only if all its characters stand for themselves.
-/

namespace PointDriver

/-- How texts are spelled between double quotes. -/
structure LiteralRules where
  /-- Whether a character may stand for itself. -/
  allows : Char → Bool
  /-- The letters that stand for a character behind a backslash. -/
  letters : List (Char × Char)
  /-- The letters before a fixed number of hexadecimal digits, with the greatest code. -/
  codes : List (Char × Nat × Nat)
  /-- Whether `u` comes before hexadecimal digits in braces. -/
  braces : Bool
  /-- Whether texts have line breaks. A backslash joins the lines on both sides of one. -/
  breaks : Bool
  /-- A quote can be spelled. -/
  quote : letters.lookup '"' = some '"'

namespace LiteralRules

/-- A character that stands for itself. -/
def Stands (r : LiteralRules) (c : Char) : Prop := c ≠ '"' ∧ c ≠ '\\' ∧ r.allows c = true

instance (r : LiteralRules) : DecidablePred r.Stands :=
  fun c => inferInstanceAs (Decidable (c ≠ '"' ∧ c ≠ '\\' ∧ r.allows c = true))

/-- Whether all characters stand for themselves. -/
def isClear (r : LiteralRules) (cs : List Char) : Bool := cs.all fun c => decide (r.Stands c)

theorem isClear_iff {r : LiteralRules} {cs : List Char} :
    r.isClear cs = true ↔ ∀ c ∈ cs, r.Stands c := by
  simp only [isClear, List.all_eq_true, decide_eq_true_eq]

theorem isClear_append {r : LiteralRules} {a b : List Char} (ha : r.isClear a = true)
    (hb : r.isClear b = true) : r.isClear (a ++ b) = true := by
  rw [isClear, List.all_append, Bool.and_eq_true]
  exact ⟨ha, hb⟩

/-- The character that hexadecimal digits spell, if its code is not too great. -/
def character? (digits : List Char) (most : Nat) : Option Char :=
  (Yaml.hexNumber? digits).bind fun n => if n ≤ most then Yaml.character? n else none

/-- Reads a fixed number of hexadecimal digits. -/
def code? (width most : Nat) (cs : List Char) : Option (Option Char × List Char) :=
  if cs.length < width then none
  else (character? (cs.take width) most).map fun c => (some c, cs.drop width)

/-- Reads up to six hexadecimal digits in braces, with underscores between them. -/
def braced? : List Char → Option (Option Char × List Char)
  | '\x7b' :: cs =>
      let inside := cs.takeWhile (· != '\x7d')
      let digits := inside.filter (· != '_')
      if inside.head? == some '_' || digits.isEmpty || 6 < digits.length then none
      else
        match cs.dropWhile (· != '\x7d') with
        | [] => none
        | _ :: rest => (character? digits 0x10FFFF).map fun c => (some c, rest)
  | _ => none

/-- What follows a line break. -/
def behindBreak? : List Char → Option (List Char)
  | '\n' :: rest => some rest
  | '\r' :: '\n' :: rest => some rest
  | _ => none

/-- The characters that are dropped where lines are joined. -/
def isSpacing (c : Char) : Bool := c == ' ' || c == '\t' || c == '\n' || c == '\r'

/-- Reads what is behind a backslash: a character or none, and what follows. -/
def escape? (r : LiteralRules) : List Char → Option (Option Char × List Char)
  | [] => none
  | c :: cs =>
      match r.letters.lookup c, r.codes.lookup c with
      | some meant, _ => some (some meant, cs)
      | none, some (width, most) => code? width most cs
      | none, none =>
          if r.braces && c == 'u' then braced? cs
          else if r.breaks then
            (behindBreak? (c :: cs)).map fun rest => (none, rest.dropWhile isSpacing)
          else none

/-- Reads one piece of a text: a character or none, and what follows. -/
def piece? (r : LiteralRules) : List Char → Option (Option Char × List Char)
  | [] => none
  | c :: cs =>
      if c = '\\' then r.escape? cs
      else if r.allows c then some (some c, cs)
      else
        match r.breaks, c, cs with
        | true, '\r', '\n' :: rest => some (some '\n', rest)
        | _, _, _ => none

/-- A piece of a text with what it stands for. -/
inductive Piece (r : LiteralRules) : List Char → Option Char → Prop
  | char {c : Char} (h : r.Stands c) : Piece r [c] (some c)
  | quote : Piece r ['\\', '"'] (some '"')
  | long {used : List Char} {meant : Option Char} (hl : 2 ≤ used.length) (hq : '"' ∉ used) :
      Piece r used meant

section Pieces
variable {r : LiteralRules} {cs rest : List Char} {meant : Option Char}

theorem not_mem_of_hexNumber? {digits : List Char} {n : Nat} (h : Yaml.hexNumber? digits = some n) :
    '"' ∉ digits := by
  unfold Yaml.hexNumber? at h
  generalize 0 = start at h
  induction digits generalizing start with
  | nil => exact List.not_mem_nil
  | cons c digits ih =>
      rw [List.foldlM_cons] at h
      obtain ⟨next, hc, hrest⟩ := Option.bind_eq_some_iff.mp h
      rw [List.mem_cons, not_or]
      refine ⟨?_, ih next hrest⟩
      rintro rfl
      cases hc

theorem not_mem_of_character? {digits : List Char} {most : Nat} {c : Char}
    (h : character? digits most = some c) : '"' ∉ digits := by
  obtain ⟨n, hn, -⟩ := Option.bind_eq_some_iff.mp h
  exact not_mem_of_hexNumber? hn

theorem code?_used {width most : Nat} (h : code? width most cs = some (meant, rest)) :
    ∃ used, cs = used ++ rest ∧ '"' ∉ used := by
  unfold code? at h
  split at h
  · cases h
  · obtain ⟨c, hc, he⟩ := Option.map_eq_some_iff.mp h
    obtain ⟨rfl, rfl⟩ := Prod.mk.inj he
    exact ⟨cs.take width, (List.take_append_drop width cs).symm, not_mem_of_character? hc⟩

theorem braced?_used (h : braced? cs = some (meant, rest)) :
    ∃ used, cs = used ++ rest ∧ '"' ∉ used := by
  unfold braced? at h
  split at h
  · next cs =>
      simp only at h
      split at h
      · cases h
      · split at h
        · cases h
        · next last rest' hend =>
            obtain ⟨c, hc, he⟩ := Option.map_eq_some_iff.mp h
            obtain ⟨rfl, rfl⟩ := Prod.mk.inj he
            -- The digits hold no quote, nor do the underscores that are left out.
            have hinside : '"' ∉ cs.takeWhile (· != '\x7d') := fun hq =>
              not_mem_of_character? hc (List.mem_filter.mpr ⟨hq, by decide⟩)
            have hlast : last = '\x7d' := by
              have hhead := List.head?_dropWhile_not (· != '\x7d') cs
              rw [hend] at hhead
              simpa using hhead
            refine ⟨'\x7b' :: (cs.takeWhile (· != '\x7d') ++ [last]), ?_, ?_⟩
            · rw [List.cons_append, List.append_assoc, List.singleton_append, ← hend,
                List.takeWhile_append_dropWhile]
            · simp [hinside, hlast]
  · cases h

theorem behindBreak?_used (h : behindBreak? cs = some rest) :
    ∃ used, cs = used ++ rest ∧ used ≠ [] ∧ '"' ∉ used := by
  unfold behindBreak? at h
  split at h
  · exact ⟨['\n'], by rw [← Option.some.inj h]; rfl, List.cons_ne_nil _ _, by decide⟩
  · exact ⟨['\r', '\n'], by rw [← Option.some.inj h]; rfl, List.cons_ne_nil _ _, by decide⟩
  · cases h

/-- An escape is that of a quote, or it holds no quote. -/
theorem escape?_used (h : r.escape? cs = some (meant, rest)) :
    cs = '"' :: rest ∧ meant = some '"' ∨ ∃ used, cs = used ++ rest ∧ used ≠ [] ∧ '"' ∉ used := by
  cases cs with
  | nil => cases h
  | cons c cs =>
      by_cases hquote : c = '"'
      · subst hquote
        simp only [escape?, r.quote, Option.some.injEq, Prod.mk.injEq] at h
        exact Or.inl ⟨by rw [h.2], h.1.symm⟩
      · right
        have hbehind : ∀ {cs}, (∃ used, cs = used ++ rest ∧ '"' ∉ used) →
            ∃ used, c :: cs = used ++ rest ∧ used ≠ [] ∧ '"' ∉ used := by
          rintro cs ⟨used, rfl, hu⟩
          exact ⟨c :: used, rfl, List.cons_ne_nil _ _, by simp [Ne.symm hquote, hu]⟩
        simp only [escape?] at h
        split at h
        · obtain ⟨-, rfl⟩ := Prod.mk.inj (Option.some.inj h)
          exact ⟨[c], rfl, by simp, by simp [Ne.symm hquote]⟩
        · exact hbehind (code?_used h)
        · split at h
          · exact hbehind (braced?_used h)
          · split at h
            · obtain ⟨behind, hb, he⟩ := Option.map_eq_some_iff.mp h
              obtain ⟨-, rfl⟩ := Prod.mk.inj he
              obtain ⟨used, hu, hne, hq⟩ := behindBreak?_used hb
              have hspacing : '"' ∉ behind.takeWhile isSpacing := fun hm =>
                absurd (List.all_eq_true.mp List.all_takeWhile _ hm) (by decide)
              refine ⟨used ++ behind.takeWhile isSpacing, ?_, by simp [hne], by simp [hq, hspacing]⟩
              rw [hu, List.append_assoc, List.takeWhile_append_dropWhile]
            · cases h

/-- What is read in one piece, in front of what follows. -/
theorem piece?_used (h : r.piece? cs = some (meant, rest)) (hq : cs.head? ≠ some '"') :
    ∃ used, cs = used ++ rest ∧ Piece r used meant := by
  cases cs with
  | nil => cases h
  | cons c cs =>
      have hc : c ≠ '"' := fun he => hq (congrArg some he)
      simp only [piece?] at h
      split at h
      · next hb =>
          subst hb
          rcases escape?_used h with ⟨rfl, rfl⟩ | ⟨used, rfl, hne, hu⟩
          · exact ⟨['\\', '"'], rfl, .quote⟩
          · refine ⟨'\\' :: used, rfl, .long ?_ ?_⟩
            · have hpos := List.length_pos_iff.mpr hne
              rw [List.length_cons]
              omega
            · simp [hu]
      · next hb =>
          split at h
          · next ha =>
              obtain ⟨rfl, rfl⟩ := Prod.mk.inj (Option.some.inj h)
              exact ⟨[c], rfl, .char ⟨hc, hb, ha⟩⟩
          · split at h
            · obtain ⟨-, rfl⟩ := Prod.mk.inj (Option.some.inj h)
              exact ⟨['\r', '\n'], rfl, .long (by decide) (by decide)⟩
            · cases h

theorem Piece.length {used : List Char} (h : Piece r used meant) :
    used = meant.toList ∨ meant.toList.length < used.length := by
  cases h with
  | char => exact Or.inl rfl
  | quote => exact Or.inr (by decide)
  | long hl =>
      right
      cases meant with
      | none => exact Nat.lt_of_lt_of_le Nat.zero_lt_two hl
      | some c => exact hl

end Pieces

/-- Reads a text behind its opening quote, and what follows the closing one. -/
def read? (r : LiteralRules) : List Char → Option (List Char × List Char)
  | [] => none
  | c :: cs =>
      if _hq : c = '"' then some ([], cs)
      else
        match _h : r.piece? (c :: cs) with
        | none => none
        | some (meant, rest) => (r.read? rest).map fun (text, rest) => (meant.toList ++ text, rest)
termination_by cs => cs.length
decreasing_by
  obtain ⟨used, he, hp⟩ := piece?_used _h (by simpa using _hq)
  have hlength := congrArg List.length he
  rw [List.length_append] at hlength
  have hpos : used.length ≠ 0 := by
    cases hp with
    | char => exact Nat.one_ne_zero
    | quote => exact Nat.succ_ne_zero 1
    | long hl => omega
  omega

/-- The pieces of a text and its closing quote. -/
inductive Reads (r : LiteralRules) : List Char → List Char → List Char → Prop
  | close (rest : List Char) : Reads r ('"' :: rest) [] rest
  | piece {used cs text rest : List Char} {meant : Option Char} (hp : Piece r used meant)
      (h : r.piece? (used ++ cs) = some (meant, cs)) (more : Reads r cs text rest) :
      Reads r (used ++ cs) (meant.toList ++ text) rest

section Reading
variable {r : LiteralRules} {cs text rest tail : List Char} {c : Char}

@[simp] theorem read?_close (r : LiteralRules) (cs : List Char) :
    r.read? ('"' :: cs) = some ([], cs) := by
  rw [read?]
  exact dif_pos rfl

theorem read?_piece (hc : c ≠ '"') : r.read? (c :: cs) =
    (r.piece? (c :: cs)).bind fun p => (r.read? p.2).map fun q => (p.1.toList ++ q.1, q.2) := by
  rw [read?, dif_neg hc]
  cases hpiece : r.piece? (c :: cs) <;> rfl

/-- What is read consists of pieces. -/
theorem reads_of_read? (h : r.read? cs = some (text, rest)) : Reads r cs text rest := by
  induction cs using read?.induct r generalizing text with
  | case1 =>
      rw [read?] at h
      cases h
  | case2 cs =>
      rw [read?_close] at h
      obtain ⟨rfl, rfl⟩ := Prod.mk.inj (Option.some.inj h)
      exact .close cs
  | case3 c cs hc hpiece =>
      rw [read?_piece hc, hpiece] at h
      cases h
  | case4 c cs hc meant behind hpiece ih =>
      rw [read?_piece hc, hpiece] at h
      obtain ⟨⟨more, rest'⟩, hmore, he⟩ := Option.map_eq_some_iff.mp h
      obtain ⟨rfl, rfl⟩ := Prod.mk.inj he
      obtain ⟨used, hused, hp⟩ := piece?_used hpiece (by simpa using hc)
      rw [hused] at hpiece ⊢
      exact .piece hp hpiece (ih hmore)

/-- Pieces and a closing quote are read. -/
theorem Reads.read?_eq (h : Reads r cs text rest) : r.read? cs = some (text, rest) := by
  induction h with
  | close rest => exact read?_close r rest
  | @piece used cs text rest meant hp hpiece more ih =>
      obtain ⟨c, hc, front, rfl⟩ : ∃ c, c ≠ '"' ∧ ∃ front, used = c :: front := by
        cases hp with
        | @char c h => exact ⟨c, h.1, [], rfl⟩
        | quote => exact ⟨'\\', by decide, _, rfl⟩
        | long hl hq =>
            obtain ⟨c, front, rfl⟩ :=
              List.exists_cons_of_length_pos (Nat.lt_of_lt_of_le Nat.zero_lt_two hl)
            exact ⟨c, fun he => hq (he ▸ List.mem_cons_self), front, rfl⟩
      rw [List.cons_append] at hpiece ⊢
      rw [read?_piece hc, hpiece, Option.bind_some, ih]
      rfl

/-- A text is no longer than what spells it. -/
theorem Reads.length_le (h : Reads r cs text rest) :
    text.length + 1 + rest.length ≤ cs.length := by
  induction h with
  | close rest => simp [Nat.add_comm]
  | piece hp hpiece more ih =>
      have hused := hp.length
      rw [List.length_append, List.length_append]
      rcases hused with rfl | hused <;> omega

/-- A text that is as long as what spells it is spelled by itself. -/
theorem Reads.stands_of_length (h : Reads r cs text rest)
    (hlength : cs.length ≤ text.length + 1 + rest.length) :
    cs = text ++ '"' :: rest ∧ ∀ c ∈ text, r.Stands c := by
  induction h with
  | close rest => exact ⟨rfl, fun c hc => absurd hc List.not_mem_nil⟩
  | @piece used cs text rest meant hp hpiece more ih =>
      have hmore := more.length_le
      rw [List.length_append, List.length_append] at hlength
      cases hp with
      | @char c hc =>
          obtain ⟨rfl, hall⟩ := ih (by simp at hlength; omega)
          refine ⟨rfl, ?_⟩
          rintro d (_ | ⟨_, hd⟩)
          · exact hc
          · exact hall d hd
      | quote =>
          simp at hlength
          omega
      | long hl hq =>
          cases meant <;> simp at hlength <;> omega

/-- A quote is passed over only behind a backslash. -/
theorem Reads.crossing (h : Reads r cs text rest) {front : List Char}
    (hcs : cs = front ++ '"' :: tail) :
    tail.length ≤ rest.length ∨
      front.getLast? = some '\\' ∧
        ∃ before more, text = before ++ more ∧ Reads r tail more rest := by
  induction h generalizing front with
  | close rest =>
      cases front with
      | nil =>
          obtain rfl := (List.cons.inj hcs).2
          exact Or.inl (Nat.le_refl _)
      | cons c front =>
          obtain rfl := (List.cons.inj hcs).2
          exact Or.inl (by simp; omega)
  | @piece used cs text rest meant hp hpiece more ih =>
      rcases List.append_eq_append_iff.mp hcs with ⟨behind, rfl, hbehind⟩ | ⟨behind, hused, hbehind⟩
      · rcases ih hbehind with hle | ⟨hlast, before, more', rfl, hreads⟩
        · exact Or.inl hle
        · refine Or.inr ⟨?_, meant.toList ++ before, more', (List.append_assoc ..).symm, hreads⟩
          rw [List.getLast?_append, hlast]
          rfl
      · cases behind with
        | nil =>
            have hclose : cs = [] ++ '"' :: tail := hbehind.symm
            rcases ih hclose with hle | ⟨hlast, -⟩
            · exact Or.inl hle
            · cases hlast
        | cons c behind =>
            -- The quote is part of the piece, which is then an escaped quote.
            obtain ⟨rfl, rfl⟩ := List.cons.inj hbehind
            have hmem : '"' ∈ used := by simp [hused]
            cases hp with
            | char hc =>
                obtain rfl := List.mem_singleton.mp hmem
                exact absurd rfl hc.1
            | long hl hq => exact absurd hmem hq
            | quote =>
                obtain ⟨rfl, rfl⟩ : front = ['\\'] ∧ behind = [] := by
                  cases front with
                  | nil => cases hused
                  | cons d front =>
                      obtain ⟨rfl, hrest⟩ := List.cons.inj hused
                      cases front with
                      | nil => exact ⟨rfl, (List.cons.inj hrest).2.symm⟩
                      | cons e front =>
                          have hnil : [] = front ++ '"' :: behind := (List.cons.inj hrest).2
                          exact absurd hnil.symm (by simp)
                exact Or.inr ⟨rfl, ['"'], _, rfl, more⟩

/-- A text that stands for itself is read up to the quote behind it. -/
theorem read?_of_stands (h : ∀ c ∈ text, r.Stands c) (rest : List Char) :
    r.read? (text ++ '"' :: rest) = some (text, rest) := by
  induction text with
  | nil => exact read?_close r rest
  | cons c text ih =>
      obtain ⟨hquote, hback, hallowed⟩ := h c List.mem_cons_self
      have hpiece : r.piece? (c :: (text ++ '"' :: rest)) = some (some c, text ++ '"' :: rest) := by
        simp only [piece?, hback, hallowed, if_true, if_false]
      rw [List.cons_append, read?_piece hquote, hpiece, Option.bind_some,
        ih fun d hd => h d (List.mem_cons_of_mem _ hd)]
      rfl

/-- A text between quotes is read as itself only if all its characters stand for themselves, when
nothing that could be read from what follows ends in a backslash. -/
theorem stands_of_read? (h : r.read? (text ++ '"' :: tail) = some (text, rest))
    (htail : ∀ more rest, r.read? tail = some (more, rest) →
      ∃ c, more.getLast? = some c ∧ c ≠ '\\') :
    ∀ c ∈ text, r.Stands c := by
  have hreads := reads_of_read? h
  rcases hreads.crossing rfl with hle | ⟨hlast, before, more, htext, hmore⟩
  · have hlength : (text ++ '"' :: tail).length ≤ text.length + 1 + rest.length := by
      rw [List.length_append, List.length_cons]
      omega
    exact (hreads.stands_of_length hlength).2
  · obtain ⟨c, hc, hne⟩ := htail more rest hmore.read?_eq
    rw [htext, List.getLast?_append, hc] at hlast
    exact absurd (Option.some.inj hlast) hne

end Reading

end LiteralRules

end PointDriver

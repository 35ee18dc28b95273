import PointDriver.Template.Reader
import PointDriver.Proofs.Template.Marks

/-!
# Templates cut at their tags

A template of the built-in kind is a sequence of texts, each with the tag behind
it, and a last text. It is read back as just these pieces, because its texts
hold nothing that starts a tag and no tag has a line to itself.
-/

namespace PointDriver.Template

/-- Whether a text holds no backslash and no brace that could be part of a tag. -/
@[simp] def isBare : List Char → Bool
  | [] => true
  | c :: rest => c != '\\' && (c != '\x7b' || rest.head?.any (· != '\x7b')) && isBare rest

/-- Whether a text ends in a character that is not blank. -/
def endsSolid (text : List Char) : Bool := text.getLast?.any fun c => !isSpace c && !isLineEnd c

/-- A text with the tag that ends it. -/
structure Cut where
  text : String
  mark : Mark
  deriving DecidableEq, Repr

namespace Cut

/-- The text and the tag as they stand in a template. -/
def source (c : Cut) : String := c.text ++ "\x7b\x7b" ++ c.mark.inside ++ "\x7d\x7d"

/-- The text and the tag as they are read. -/
def pieces (c : Cut) : List Piece := [.text c.text.toList, .tag ⟨c.mark.tag, false, false⟩ false]

/-- The text and the tag are told apart, and the tag does not take its line away. -/
structure IsRead (c : Cut) : Prop where
  bare : isBare c.text.toList = true
  mark : c.mark.IsRead
  solid : c.mark.tag.isStructural = true → endsSolid c.text.toList = true

end Cut

/-- The template that cuts and a last text make up. -/
def sourceOf (cuts : List Cut) (last : String) : String := String.join (cuts.map Cut.source) ++ last

/-- The pieces that cuts and a last text are read as. -/
def piecesOf (cuts : List Cut) (last : String) : List Piece :=
  cuts.flatMap Cut.pieces ++ [.text last.toList]

/-- Lines with a break between any two. -/
@[simp] def joined : List String → String
  | [] => ""
  | [line] => line
  | line :: next :: rest => line ++ ("\n" ++ joined (next :: rest))

variable {text rest : List Char} {last : String}

theorem textFrom_append (ht : isBare text = true) (hr : textFrom false rest = ([], rest)) :
    textFrom false (text ++ rest) = (text, rest) := by
  induction text with
  | nil => exact hr
  | cons c more ih =>
      simp only [isBare, Bool.and_eq_true, bne_iff_ne, ne_eq, Bool.or_eq_true] at ht
      obtain ⟨⟨hslash, hbrace⟩, hmore⟩ := ht
      have ho : opensTag (c :: (more ++ rest)) = false := by
        by_cases hc : c = '\x7b'
        · cases more with
          | nil => simp [hc] at hbrace
          | cons d behind =>
              have hd : d ≠ '\x7b' := by simpa [hc] using hbrace
              simp [opensTag, hd]
        · simp [opensTag, hc]
      rw [List.cons_append, textFrom.eq_def]
      simp [ho, hslash, ih hmore]

theorem isBare_append {a b : List Char} (ha : isBare a = true) (hb : isBare b = true) :
    isBare (a ++ b) = true := by
  induction a with
  | nil => exact hb
  | cons c rest ih =>
      simp only [isBare, Bool.and_eq_true, Bool.or_eq_true] at ha
      obtain ⟨⟨hslash, hbrace⟩, hrest⟩ := ha
      simp only [List.cons_append, isBare, Bool.and_eq_true, Bool.or_eq_true]
      refine ⟨⟨hslash, hbrace.imp_right fun h => ?_⟩, ih hrest⟩
      cases rest with
      | nil => cases h
      | cons d more => exact h

theorem endsSolid_append {a b : List Char} (hb : endsSolid b = true) :
    endsSolid (a ++ b) = true := by
  unfold endsSolid at hb ⊢
  rw [List.getLast?_append]
  cases h : b.getLast? with
  | none =>
      rw [h] at hb
      cases hb
  | some c =>
      rw [h] at hb
      exact hb

/-- The characters of a text that is written out. -/
theorem toList_of_eq {text : String} {cs : List Char} (h : text = String.ofList cs)
    {p : List Char → Bool} (hp : p cs = true) : p text.toList = true := by
  rw [h, String.toList_ofList]
  exact hp

/-- Lines are bare together when each is bare before a break and the last one by itself. -/
theorem isBare_joined {lines : List String} {line : String}
    (h : ∀ line ∈ lines, isBare (line.toList ++ ['\n']) = true) (hl : lines.getLast? = some line)
    (hb : isBare line.toList = true) : isBare (joined lines).toList = true := by
  induction lines using joined.induct with
  | case1 => cases hl
  | case2 single =>
      obtain rfl : single = line := by simpa using hl
      exact hb
  | case3 first next rest ih =>
      have hrest := ih (fun l hm => h l (List.mem_cons_of_mem _ hm)) (by simpa using hl)
      have hbreak : "\n".toList = ['\n'] := rfl
      rw [joined, String.toList_append, String.toList_append, hbreak, ← List.append_assoc]
      exact isBare_append (h first List.mem_cons_self) hrest

theorem endsSolid_joined {lines : List String} {line : String} (h : lines.getLast? = some line)
    (hs : endsSolid line.toList = true) : endsSolid (joined lines).toList = true := by
  induction lines using joined.induct with
  | case1 => cases h
  | case2 single =>
      obtain rfl : single = line := by simpa using h
      exact hs
  | case3 first next rest ih =>
      rw [joined, String.toList_append, String.toList_append]
      exact endsSolid_append (endsSolid_append (ih (by simpa using h)))

theorem textFrom_tag (rest : List Char) :
    textFrom false ('\x7b' :: '\x7b' :: rest) = ([], '\x7b' :: '\x7b' :: rest) := by
  rw [textFrom.eq_def]
  simp [opensTag]

theorem textFrom_nil : textFrom false [] = ([], []) := by
  rw [textFrom.eq_def]

theorem startsLine_of_endsSolid {before : Bool} (h : endsSolid text = true) :
    startsLine before text = false := by
  rcases List.eq_nil_or_concat text with rfl | ⟨init, c, rfl⟩
  · cases h
  · have hc : isSpace c = false ∧ isLineEnd c = false := by
      simpa [endsSolid] using h
    simp [startsLine, hc]

theorem pieces?_cut {c : Cut} (h : c.IsRead) (fuel : Nat) (fresh : Bool) :
    pieces? (fuel + 1) fresh (c.source.toList ++ rest) =
      (pieces? fuel false rest).map (c.pieces ++ ·) := by
  have hopen : "\x7b\x7b".toList = ['\x7b', '\x7b'] := rfl
  have hclose : "\x7d\x7d".toList = ['\x7d', '\x7d'] := rfl
  have hsource : c.source.toList ++ rest = c.text.toList ++
      '\x7b' :: '\x7b' :: (c.mark.inside.toList ++ '\x7d' :: '\x7d' :: rest) := by
    simp only [Cut.source, String.toList_append, hopen, hclose, List.append_assoc,
      List.cons_append, List.nil_append]
  have htext := textFrom_append h.bare
    (textFrom_tag (c.mark.inside.toList ++ '\x7d' :: '\x7d' :: rest))
  have halone : (c.mark.tag.isStructural && startsLine fresh c.text.toList && endsLine rest) =
      false := by
    cases hs : c.mark.tag.isStructural with
    | false => rfl
    | true => simp [startsLine_of_endsSolid (h.solid hs)]
  rw [hsource, pieces?]
  simp only [htext, List.length_append, Nat.add_sub_cancel, List.take_left, List.drop_succ_cons,
    List.drop_zero, Mark.tag?_inside h.mark, bind, Option.bind_some, halone]
  cases pieces? fuel false rest <;> rfl

theorem pieces?_last (h : isBare text = true) (fuel : Nat) (fresh : Bool) :
    pieces? (fuel + 1) fresh text = some [.text text] := by
  have htext := textFrom_append h textFrom_nil
  rw [List.append_nil] at htext
  simp [pieces?, htext]

theorem sourceOf_cons (c : Cut) (cuts : List Cut) :
    (sourceOf (c :: cuts) last).toList = c.source.toList ++ (sourceOf cuts last).toList := by
  simp [sourceOf, String.join_cons]

/-- The pieces of a template in order. -/
theorem pieces?_sourceOf {cuts : List Cut} (h : ∀ c ∈ cuts, c.IsRead)
    (hlast : isBare last.toList = true) {fuel : Nat} (hfuel : cuts.length ≤ fuel) (fresh : Bool) :
    pieces? (fuel + 1) fresh (sourceOf cuts last).toList = some (piecesOf cuts last) := by
  induction cuts generalizing fuel fresh with
  | nil =>
      have hs : sourceOf [] last = last := by simp [sourceOf]
      rw [hs]
      exact pieces?_last hlast fuel fresh
  | cons c rest ih =>
      obtain ⟨fuel, rfl⟩ := Nat.exists_eq_succ_of_ne_zero (n := fuel) (by
        rw [List.length_cons] at hfuel
        omega)
      rw [sourceOf_cons, pieces?_cut (h c List.mem_cons_self),
        ih (fun x hx => h x (List.mem_cons_of_mem _ hx)) (Nat.le_of_succ_le_succ hfuel) false]
      simp [piecesOf]

/-- No blanks are taken away around these tags. -/
theorem settleBlanks_piecesOf (cuts : List Cut) :
    settleBlanks false false (piecesOf cuts last) = piecesOf cuts last := by
  induction cuts with
  | nil => simp [piecesOf, settleBlanks, keptBefore]
  | cons c rest ih =>
      rw [piecesOf] at ih ⊢
      rw [List.flatMap_cons, List.append_assoc]
      obtain ⟨text, mark⟩ := c
      cases mark with
      | output name => simp [Cut.pieces, Mark.tag, settleBlanks, keptBefore, ih]
      | loop list => simp [Cut.pieces, Mark.tag, settleBlanks, keptBefore, ih]
      | close => simp [Cut.pieces, Mark.tag, settleBlanks, keptBefore, ih]

theorem length_le_sourceOf (cuts : List Cut) :
    cuts.length ≤ (sourceOf cuts last).toList.length := by
  induction cuts with
  | nil => simp
  | cons c rest ih =>
      have hc : 1 ≤ c.source.toList.length := by simp [Cut.source]; omega
      rw [sourceOf_cons, List.length_append, List.length_cons]
      omega

/-- A template is read from its pieces. -/
theorem read?_sourceOf {cuts : List Cut} (h : ∀ c ∈ cuts, c.IsRead)
    (hlast : isBare last.toList = true) :
    read? (sourceOf cuts last).toList =
      (elements? (2 * (piecesOf cuts last).length + 2) (piecesOf cuts last)).bind fun found =>
        if found.2.isEmpty then some found.1 else none := by
  simp only [read?, pieces?_sourceOf h hlast (length_le_sourceOf cuts), settleBlanks_piecesOf, bind,
    Option.bind_some]
  rfl

end PointDriver.Template

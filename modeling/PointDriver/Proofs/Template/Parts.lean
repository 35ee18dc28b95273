import PointDriver.Template.Render
import PointDriver.Proofs.Template.Cutting

/-!
# Templates of names and loops

A template of the built-in kind prints names of its context and goes through
lists of texts. Its rendering never fails when the context has these names and
lists, and it is the text in which every tag is replaced by what it stands for.
-/

namespace PointDriver.Template

/-- A part of a template: a text, and the name or the loop behind it. -/
inductive Part where
  | shown (text name : String)
  /-- A loop prints for each item the texts of its body, the item behind each of them, and a
  last text. -/
  | each (text list : String) (body : List String) (last : String)
  deriving DecidableEq, Repr

namespace Part

/-- The name of the current value. -/
def current : String := "this"

/-- The part cut at its tags. -/
def cuts : Part → List Cut
  | shown text name => [⟨text, .output name⟩]
  | each text list body last =>
      ⟨text, .loop list⟩ :: (body.map (⟨·, .output current⟩) ++ [⟨last, .close⟩])

/-- The element that prints a name. -/
def naming (name : String) : Element := .output (.reference (refersTo name))

/-- The elements of a loop's body. -/
def inner (body : List String) (last : String) : List Element :=
  body.flatMap (fun text => [.text text.toList, naming current]) ++ [.text last.toList]

/-- The elements that the part is read as. -/
def elements : Part → List Element
  | shown text name => [.text text.toList, naming name]
  | each text list body last =>
      [.text text.toList, .block (Mark.loopOpening list) (inner body last) none]

/-- What a loop prints for an item. -/
def itemText (body : List String) (last item : String) : String :=
  String.join (body.map (· ++ item)) ++ last

/-- What the part prints when names stand for texts and lists hold texts. -/
def rendered (value : String → String) (items : String → List String) : Part → String
  | shown text name => text ++ value name
  | each text list body last => text ++ String.join ((items list).map (itemText body last))

end Part

variable {fuel : Nat} {last : String} {rest : List Piece}

theorem elements?_inner {body : List String} (last : String) (rest : List Piece)
    (h : 2 * body.length + 1 < fuel) :
    elements? fuel ((body.map (Cut.mk · (.output Part.current))).flatMap Cut.pieces ++
        .text last.toList :: .tag ⟨.closing "each", false, false⟩ false :: rest) =
      some (Part.inner body last, .tag ⟨.closing "each", false, false⟩ false :: rest) := by
  induction body generalizing fuel with
  | nil =>
      obtain ⟨fuel, rfl⟩ := Nat.exists_eq_add_of_lt h
      simp [elements?, Part.inner, Nat.add_comm]
  | cons text body ih =>
      rw [List.length_cons] at h
      obtain ⟨fuel, rfl⟩ := Nat.exists_eq_add_of_le' (m := 2) (n := fuel) (by omega)
      have hbody : 2 * body.length + 1 < fuel := by omega
      simp [elements?, Cut.pieces, Mark.tag, ih hbody, Part.inner, Part.naming]

theorem piecesOf_append (a b : List Cut) :
    piecesOf (a ++ b) last = a.flatMap Cut.pieces ++ piecesOf b last := by
  simp [piecesOf]

theorem length_pieces_body (body : List String) :
    ((body.map (Cut.mk · (.output Part.current))).flatMap Cut.pieces).length =
      2 * body.length := by
  induction body with
  | nil => rfl
  | cons text body ih =>
      rw [List.map_cons, List.flatMap_cons, List.length_append, ih, List.length_cons, Cut.pieces]
      simp only [List.length_cons, List.length_nil]
      omega

/-- The elements of parts and a last text. -/
theorem elements?_parts {parts : List Part}
    (h : (piecesOf (parts.flatMap Part.cuts) last).length < fuel) :
    elements? fuel (piecesOf (parts.flatMap Part.cuts) last) =
      some (parts.flatMap Part.elements ++ [.text last.toList], []) := by
  induction parts generalizing fuel with
  | nil =>
      obtain ⟨fuel, rfl⟩ := Nat.exists_eq_add_of_le' (m := 2) (n := fuel) h
      simp [elements?, piecesOf]
  | cons part parts ih =>
      rw [List.flatMap_cons, piecesOf_append, List.length_append] at h
      rw [List.flatMap_cons, piecesOf_append]
      cases part with
      | shown text name =>
          simp only [Part.cuts, Cut.pieces, List.flatMap_cons, List.flatMap_nil, List.append_nil,
            List.length_cons, List.length_nil] at h
          obtain ⟨fuel, rfl⟩ := Nat.exists_eq_add_of_le' (m := 2) (n := fuel) (by omega)
          have hparts : (piecesOf (parts.flatMap Part.cuts) last).length < fuel := by omega
          simp [elements?, Part.cuts, Cut.pieces, Mark.tag, ih hparts, Part.elements, Part.naming]
      | each text list body closing =>
          have hlen := length_pieces_body body
          simp only [Part.cuts, List.flatMap_cons, List.flatMap_append, List.length_append, hlen,
            Cut.pieces, List.length_cons, List.length_nil, List.flatMap_nil, List.append_nil] at h
          obtain ⟨fuel, rfl⟩ := Nat.exists_eq_add_of_le' (m := 3) (n := fuel) (by omega)
          have hbody : 2 * body.length + 1 < fuel + 1 := by omega
          have hparts : (piecesOf (parts.flatMap Part.cuts) last).length < fuel + 1 := by omega
          have hinner := elements?_inner closing (piecesOf (parts.flatMap Part.cuts) last) hbody
          have hrest := ih hparts
          have hnone : ∀ pieces, otherwise? (fuel + 1)
              (.tag ⟨.closing "each", false, false⟩ false :: pieces) =
                some (none, .tag ⟨.closing "each", false, false⟩ false :: pieces) := fun _ => rfl
          have hshape : (Part.each text list body closing).cuts.flatMap Cut.pieces ++
              piecesOf (parts.flatMap Part.cuts) last =
                .text text.toList :: .tag ⟨.opening (Mark.loopOpening list), false, false⟩ false ::
                  ((body.map (Cut.mk · (.output Part.current))).flatMap Cut.pieces ++
                    .text closing.toList :: .tag ⟨.closing "each", false, false⟩ false ::
                      piecesOf (parts.flatMap Part.cuts) last) := by
            simp [Part.cuts, Cut.pieces, Mark.tag]
          rw [hshape]
          simp only [elements?, hinner, hnone, hrest, bind, Option.bind_some, Mark.loopOpening]
          simp [Part.elements, Mark.loopOpening]

namespace Part

/-- The part is read as it stands: its texts hold no tags, its names are names, and its loop
takes no line away. -/
def IsRead : Part → Prop
  | shown text name => isBare text.toList = true ∧ Referable name ∧ name ≠ current
  | each text list body last =>
      (isBare text.toList = true ∧ endsSolid text.toList = true) ∧
        (Referable list ∧ list ≠ current) ∧ (∀ inner ∈ body, isBare inner.toList = true) ∧
        isBare last.toList = true ∧ endsSolid last.toList = true

theorem referable_current : Referable current := ⟨by decide, by decide, by decide, by decide⟩

theorem isRead_cuts {part : Part} (h : part.IsRead) : ∀ c ∈ part.cuts, c.IsRead := by
  intro c hc
  cases part with
  | shown text name =>
      obtain rfl := List.mem_singleton.mp hc
      exact ⟨h.1, h.2.1, fun hs => absurd hs (by simp [Mark.tag, Tag.isStructural])⟩
  | each text list body last =>
      obtain ⟨⟨htext, hsolid⟩, ⟨hlist, -⟩, hbody, hlast, hend⟩ := h
      rcases List.mem_cons.mp hc with rfl | hc
      · exact ⟨htext, hlist, fun _ => hsolid⟩
      rcases List.mem_append.mp hc with hc | hc
      · obtain ⟨inner, hm, rfl⟩ := List.mem_map.mp hc
        exact ⟨hbody inner hm, referable_current,
          fun hs => absurd hs (by simp [Mark.tag, Tag.isStructural])⟩
      · obtain rfl := List.mem_singleton.mp hc
        exact ⟨hlast, trivial, fun _ => hend⟩

end Part

/-- A template of parts is read as the elements of its parts. -/
theorem read?_parts {parts : List Part} (h : ∀ part ∈ parts, part.IsRead)
    (hlast : isBare last.toList = true) :
    read? (sourceOf (parts.flatMap Part.cuts) last).toList =
      some (parts.flatMap Part.elements ++ [.text last.toList]) := by
  have hcuts : ∀ c ∈ parts.flatMap Part.cuts, c.IsRead := by
    intro c hc
    obtain ⟨part, hm, hc⟩ := List.mem_flatMap.mp hc
    exact Part.isRead_cuts (h part hm) c hc
  rw [read?_sourceOf hcuts hlast, elements?_parts (by omega)]
  rfl

theorem renderAll_append (frames : Frames) (a b : List Element) :
    renderAll frames (a ++ b) =
      (renderAll frames a).bind fun x => (renderAll frames b).map (x ++ ·) := by
  induction a with
  | nil => cases h : renderAll frames b <;> simp [renderAll, h]
  | cons element a ih =>
      rw [List.cons_append, renderAll, renderAll, ih]
      cases renderElement frames element <;> cases renderAll frames a <;>
        cases renderAll frames b <;> simp

theorem shown_text (s : String) : shown (.text s) = s.toList := rfl

variable {members : List (String × Json)} {frames : Frames} {frame : Frame}

theorem renderElement_current {item : String} (hv : frame.value = .text item) :
    renderElement (frame :: frames) (Part.naming Part.current) = some item.toList := by
  have hk : refersTo Part.current = ⟨.frame, 0, []⟩ := rfl
  have hr : (refersTo Part.current).resolve (frame :: frames) = some (some (.text item)) := by
    simp [hk, Reference.resolve, navigate, hv]
  simp [Part.naming, renderElement, Argument.value?, hr, shown_text]

/-- The frame of a whole context. -/
def contextFrame (members : List (String × Json)) : Frame := ⟨.object members, [], []⟩

theorem resolve_member {name : String} (h : name ≠ Part.current) {value : Json}
    (hm : members.lookup name = some value) :
    (refersTo name).resolve [contextFrame members] = some (some value) := by
  have hk : refersTo name = ⟨.frame, 0, [name]⟩ := by
    have hb : (name != "this") = true := bne_iff_ne.mpr h
    simp [refersTo, hb]
  simp [hk, Reference.resolve, contextFrame, navigate, hm]

theorem renderElement_name {name text : String} (h : name ≠ Part.current)
    (hm : members.lookup name = some (.text text)) :
    renderElement [contextFrame members] (Part.naming name) = some text.toList := by
  simp [Part.naming, renderElement, Argument.value?, resolve_member h hm, shown_text]

theorem renderElement_text (text : List Char) :
    renderElement frames (.text text) = some text := by
  rw [renderElement]

/-- The body of a loop prints its item behind each of its texts. -/
theorem renderAll_inner {item : String} (body : List String) (hv : frame.value = .text item) :
    renderAll (frame :: frames) (Part.inner body last) =
      some (Part.itemText body last item).toList := by
  induction body with
  | nil => simp [Part.inner, Part.itemText, renderAll, renderElement_text]
  | cons text body ih =>
      have hinner : Part.inner (text :: body) last =
          .text text.toList :: Part.naming Part.current :: Part.inner body last := by
        simp [Part.inner]
      rw [hinner, renderAll, renderAll, ih, renderElement_text, renderElement_current hv]
      simp [Part.itemText, String.join_cons]

section Loop
variable {print : Printer} {line : String → String}
  (h : ∀ frame item, frame.value = .text item → print (frame :: frames) = some (line item).toList)

include h

/-- A loop prints its body for each item in order. -/
theorem printEach_itemFrames (count : Nat) (items : List (Json × Nat)) (texts : List String)
    (ht : items.map Prod.fst = texts.map .text) :
    printEach frames print (items.map fun x => itemFrame [] count x.2 x.1) =
      some (String.join (texts.map line)).toList := by
  induction items generalizing texts with
  | nil =>
      obtain rfl : texts = [] := by simpa using ht.symm
      rfl
  | cons x items ih =>
      cases texts with
      | nil => cases ht
      | cons text texts =>
          obtain ⟨hx, hr⟩ := List.cons.inj ht
          rw [List.map_cons, printEach, h _ text (by exact hx), ih texts hr]
          simp [String.join_cons]

theorem each_texts (texts : List String) :
    each frames [] (some (.array (texts.map .text))) print none =
      some (String.join (texts.map line)).toList := by
  cases texts with
  | nil => rfl
  | cons text texts =>
      exact printEach_itemFrames h _ _ (text :: texts) (List.zipIdx_map_fst 0 _)

end Loop

variable {value : String → String} {items : String → List String}

/-- What the context holds for the names and lists of a part. -/
def Part.Defined (members : List (String × Json)) (value : String → String)
    (items : String → List String) : Part → Prop
  | shown _ name => members.lookup name = some (.text (value name))
  | each _ list _ _ => members.lookup list = some (.array ((items list).map .text))

theorem renderElement_loop {list : String} (hl : list ≠ Part.current)
    (hm : members.lookup list = some (.array ((items list).map .text))) (body : List String) :
    renderElement [contextFrame members]
        (.block (Mark.loopOpening list) (Part.inner body last) none) =
      some (String.join ((items list).map (Part.itemText body last))).toList := by
  have hprint : each [contextFrame members] [] (some (.array ((items list).map .text)))
      (fun frames => renderAll frames (Part.inner body last)) none =
        some (String.join ((items list).map (Part.itemText body last))).toList :=
    each_texts (fun _ _ hv => renderAll_inner body hv) (items list)
  rw [renderElement]
  simp [printBlock, Mark.loopOpening, Argument.value?.valuesOf, Argument.value?.optionValuesOf,
    Argument.value?, resolve_member hl hm, hprint]

theorem renderAll_elements {part : Part} (h : part.IsRead)
    (hd : part.Defined members value items) :
    renderAll [contextFrame members] part.elements = some (part.rendered value items).toList := by
  cases part with
  | shown text name =>
      rw [Part.elements, renderAll, renderAll, renderAll, renderElement_text,
        renderElement_name h.2.2 hd]
      simp [Part.rendered]
  | each text list body last =>
      rw [Part.elements, renderAll, renderAll, renderAll, renderElement_text,
        renderElement_loop h.2.1.2 hd]
      simp [Part.rendered]

theorem renderAll_parts {parts : List Part} (h : ∀ part ∈ parts, part.IsRead)
    (hd : ∀ part ∈ parts, part.Defined members value items) :
    renderAll [contextFrame members] (parts.flatMap Part.elements) =
      some (String.join (parts.map (Part.rendered value items))).toList := by
  induction parts with
  | nil => rfl
  | cons part parts ih =>
      rw [List.flatMap_cons, renderAll_append,
        renderAll_elements (h part List.mem_cons_self) (hd part List.mem_cons_self),
        ih (fun x hx => h x (List.mem_cons_of_mem _ hx))
          (fun x hx => hd x (List.mem_cons_of_mem _ hx))]
      simp [String.join_cons]

/-- A template of parts means its texts with the values of its names and the items of its
lists between them, and it can be rendered wherever these are defined. -/
theorem render?_parts {parts : List Part} (h : ∀ part ∈ parts, part.IsRead)
    (hlast : isBare last.toList = true)
    (hd : ∀ part ∈ parts, part.Defined members value items) :
    render? (sourceOf (parts.flatMap Part.cuts) last) (.object members) =
      some (String.join (parts.map (Part.rendered value items)) ++ last) := by
  have hrender : renderAll [contextFrame members]
      (parts.flatMap Part.elements ++ [.text last.toList]) =
      some (String.join (parts.map (Part.rendered value items)) ++ last).toList := by
    rw [renderAll_append, renderAll_parts h hd, renderAll, renderAll, renderElement_text]
    simp
  rw [contextFrame] at hrender
  simp only [render?, read?_parts h hlast, bind, Option.bind_some, hrender, String.ofList_toList]
  rfl

end PointDriver.Template

import PointDriver.Proofs.Yaml.Blocks

/-!
# Sequences of words

A sequence of words is read item by item when it has one item to a line, by
itself and as the value of a key. The words may stand between quotes.
-/

namespace PointDriver.Yaml

/-- A word as it stands in a sequence. -/
inductive Written where
  /-- The word by itself. -/
  | bare (text : String)
  /-- The word between quotes. -/
  | quoted (text : String)

namespace Written

/-- The characters of an item. -/
def letters : Written → List Char
  | bare text => text.toList
  | quoted text => '\'' :: (text.toList ++ ['\''])

/-- What the item is read as. -/
def node : Written → Node
  | bare text => .plain text
  | quoted text => .quoted text

/-- Whether the item is made of word characters. Only between quotes can there be none. -/
def IsLegal : Written → Prop
  | bare text => IsWord text.toList ∧ text.toList ≠ []
  | quoted text => IsWord text.toList

end Written

/-- The characters of a sequence with one item to a line. -/
def linesOfItems (items : List Written) : List Char :=
  items.flatMap fun w => '-' :: ' ' :: (w.letters ++ ['\n'])

section Items
variable {items : List Written} (h : ∀ w ∈ items, w.IsLegal)

theorem Written.scalarText {w : Written} (h : w.IsLegal) : ScalarText w.letters w.node := by
  cases w with
  | bare text => exact .word h.1 (mt String.toList_eq_nil_iff.mpr h.2)
  | quoted text => exact .quoted false (isQuotable_of_isWord h)

/-- The lines are those of their characters. -/
theorem linesOfItems_eq (items : List Written) :
    linesOfItems items = dashItems 0 (items.map fun w => (w.letters, w.node)) := by
  induction items with
  | nil => rfl
  | cons w items ih =>
      have hcons : linesOfItems (w :: items) = dashItem w.letters ++ linesOfItems items := rfl
      cases items with
      | nil =>
          rw [hcons]
          exact List.append_nil _
      | cons next items =>
          rw [hcons, ih]
          rfl

include h

theorem scalarText_items : ∀ i ∈ items.map fun w => (w.letters, w.node), ScalarText i.1 i.2 :=
  List.forall_mem_map.mpr fun w hw => Written.scalarText (h w hw)

/-- A document with one item to a line is the sequence of the items. -/
theorem readDocument?_linesOfItems (hne : items ≠ []) :
    readDocument? (linesOfItems items) = some (some (.sequence (items.map Written.node))) := by
  have hread := readDocument?_dashItems (scalarText_items h) (by simpa using hne)
  rwa [← linesOfItems_eq, List.map_map] at hread

/-- A document with a key before the lines of items maps the key to their sequence. -/
theorem readDocument?_key {key : String} (hk : IsWord key.toList) (hkne : key ≠ "")
    (hne : items ≠ []) :
    readDocument? (key.toList ++ ':' :: '\n' :: linesOfItems items) =
      some (some (.mapping [(.plain key, .sequence (items.map Written.node))])) := by
  have hlines : ValueText ('\n' :: linesOfItems items) (.sequence (items.map Written.node)) := by
    have hvalue := ValueText.lines 0 (scalarText_items h) (by simpa using hne)
    rwa [← linesOfItems_eq, List.map_map] at hvalue
  have hread := readDocument?_entries (.cons (.word hk hkne) hlines .nil) (List.cons_ne_nil _ _)
  rwa [List.append_nil] at hread

end Items

end PointDriver.Yaml

/-! # Similar names

How close two names are, on a scale from zero to one, and the closest name of a
list. Two characters match when they are equal and not further apart than half
the longer name; matches in a different order count less. -/

namespace PointDriver.Similarity

/-- A character of a name with the position it has there, and whether it is
already matched. -/
structure Slot where
  letter : Char
  position : Nat
  taken : Bool

/-- Takes the first free slot with the letter within the reach of a position. -/
def take? (letter : Char) (position reach : Nat) : List Slot → Option (List Slot)
  | [] => none
  | slot :: rest =>
      if slot.letter = letter && !slot.taken && position ≤ slot.position + reach &&
          slot.position ≤ position + reach then
        some ({ slot with taken := true } :: rest)
      else (take? letter position reach rest).map (slot :: ·)

/-- The letters of the first name that find a slot in the second, in order, and
the slots afterwards. -/
def matchLetters (reach : Nat) : Nat → List Char → List Slot → List Char × List Slot
  | _, [], slots => ([], slots)
  | position, letter :: rest, slots =>
      match take? letter position reach slots with
      | some slots =>
          let (found, slots) := matchLetters reach (position + 1) rest slots
          (letter :: found, slots)
      | none => matchLetters reach (position + 1) rest slots

/-- The slots of a name, all free. -/
def slotsFrom : Nat → List Char → List Slot
  | _, [] => []
  | position, letter :: rest => ⟨letter, position, false⟩ :: slotsFrom (position + 1) rest

/-- The similarity of two names. -/
def similarity (a b : List Char) : Float :=
  let reach := max a.length b.length / 2 - 1
  let (found, slots) := matchLetters reach 0 a (slotsFrom 0 b)
  if found.isEmpty then 0
  else
    let facing := (slots.filter (·.taken)).map (·.letter)
    let swapped := ((found.zip facing).filter fun (x, y) => x != y).length / 2
    let m := found.length.toFloat
    (m / a.length.toFloat + m / b.length.toFloat + (m - swapped.toFloat) / m) / 3

/-- The name most similar to a text among those more similar than seven tenths.
Of equally similar names the later one is chosen. -/
def closest? (text : String) (names : List String) : Option String :=
  let scored := names.map fun name => (name, similarity text.toList name.toList)
  let near := scored.filter fun (_, score) => score > 0.7
  (near.foldl (fun (best : Option (String × Float)) candidate =>
    match best with
    | some (name, score) => if candidate.2 >= score then some candidate else some (name, score)
    | none => some candidate) none).map (·.1)

end PointDriver.Similarity

/-! # Text as bytes

Arguments, files and output streams are byte sequences. Reading a character
off the front either succeeds with the bytes it took or says that the front is
not well formed; every other reading is built from that one step. -/

namespace PointDriver

/-- A byte sequence, such as an argument or the content of a file. -/
abbrev Bytes := List UInt8

namespace Utf8

/-- The bytes of a character list. -/
def encodeChars (cs : List Char) : Bytes :=
  cs.flatMap String.utf8EncodeChar

/-- The bytes of a text. -/
def encode (s : String) : Bytes :=
  encodeChars s.toList

@[simp] theorem encodeChars_nil : encodeChars [] = [] := rfl

@[simp] theorem encodeChars_cons (c : Char) (cs : List Char) :
    encodeChars (c :: cs) = String.utf8EncodeChar c ++ encodeChars cs := rfl

@[simp] theorem encodeChars_append (a b : List Char) :
    encodeChars (a ++ b) = encodeChars a ++ encodeChars b := by
  simp [encodeChars]

@[simp] theorem encode_append (s t : String) :
    encode (s ++ t) = encode s ++ encode t := by
  simp [encode]

/-- The character whose encoding starts the bytes. Four bytes are enough to
see it, and overlong forms and surrogates have no character. -/
def front? (b : Bytes) : Option Char :=
  (b.take 4).toByteArray.utf8DecodeChar? 0

theorem front?_encode (c : Char) (rest : Bytes) :
    front? (String.utf8EncodeChar c ++ rest) = some c := by
  have size : (String.utf8EncodeChar c).length ≤ 4 := by
    rw [String.length_utf8EncodeChar]; exact c.utf8Size_le_four
  have bytes : (String.utf8EncodeChar c ++ rest).take 4 =
      String.utf8EncodeChar c ++ rest.take (4 - (String.utf8EncodeChar c).length) := by
    rw [List.take_append, List.take_of_length_le size]
  rw [front?, bytes, List.toByteArray_append]
  exact ByteArray.utf8DecodeChar?_utf8EncodeChar_append

/-- A character takes at least one byte. -/
theorem exists_utf8EncodeChar_eq_cons (c : Char) :
    ∃ b more, String.utf8EncodeChar c = b :: more ∧ more.length = c.utf8Size - 1 := by
  have length := String.length_utf8EncodeChar c
  have positive := c.utf8Size_pos
  obtain ⟨b, more, shape⟩ := List.exists_cons_of_length_pos (length ▸ positive)
  rw [shape, List.length_cons] at length
  exact ⟨b, more, shape, Nat.eq_sub_of_add_eq length⟩

/-- The longest well-formed beginning as characters, and the bytes after it.
The first argument counts the bytes that belong to a character already read. -/
def scan : Nat → Bytes → List Char × Bytes
  | _, [] => ([], [])
  | taken + 1, _ :: rest => scan taken rest
  | 0, b :: rest =>
      match front? (b :: rest) with
      | some c => let (cs, tail) := scan (c.utf8Size - 1) rest; (c :: cs, tail)
      | none => ([], b :: rest)

theorem scan_eq_drop (taken : Nat) (b : Bytes) : scan taken b = scan 0 (b.drop taken) := by
  induction taken generalizing b with
  | zero => simp
  | succ n ih => cases b with
    | nil => simp [scan]
    | cons x rest => simp [scan, ih]

/-- Reading an encoded text gives its characters and goes on behind it. -/
theorem scan_encodeChars (cs : List Char) (rest : Bytes) :
    scan 0 (encodeChars cs ++ rest) = (cs ++ (scan 0 rest).1, (scan 0 rest).2) := by
  induction cs with
  | nil => simp
  | cons c cs ih =>
    obtain ⟨b, more, shape, size⟩ := exists_utf8EncodeChar_eq_cons c
    have front := front?_encode c (encodeChars cs ++ rest)
    rw [encodeChars_cons, List.append_assoc]
    rw [shape, List.cons_append] at front ⊢
    rw [scan, front]
    simp only [← size]
    rw [scan_eq_drop, List.drop_left, ih, List.cons_append]

/-- The text that the bytes encode, if they are well formed throughout. -/
def decode? (b : Bytes) : Option String :=
  match scan 0 b with
  | (cs, []) => some (String.ofList cs)
  | (_, _ :: _) => none

@[simp] theorem decode?_encode (s : String) : decode? (encode s) = some s := by
  have h := scan_encodeChars s.toList []
  rw [List.append_nil] at h
  simp [decode?, encode, h, scan]

/-- How many bytes at the front belong to one broken sequence: its first byte
and as many following bytes as some well-formed sequence could start with. -/
def brokenLength : Bytes → Nat
  | [] => 0
  | [_] => 1
  | a :: b :: rest =>
      let follows (x : UInt8) : Bool := 0x80 ≤ x && x ≤ 0xBF
      let second : Bool :=
        if a == 0xE0 then 0xA0 ≤ b && b ≤ 0xBF
        else if a == 0xED then 0x80 ≤ b && b ≤ 0x9F
        else if a == 0xF0 then 0x90 ≤ b && b ≤ 0xBF
        else if a == 0xF4 then 0x80 ≤ b && b ≤ 0x8F
        else 0xE1 ≤ a && a ≤ 0xF3 && follows b
      if second then
        match rest with
        | c :: _ => if 0xF0 ≤ a && follows c then 3 else 2
        | [] => 2
      else 1

/-- The characters of the bytes, with one replacement character for each broken
sequence. The first argument counts the bytes that are already accounted for. -/
def lossyChars : Nat → Bytes → List Char
  | _, [] => []
  | taken + 1, _ :: rest => lossyChars taken rest
  | 0, b :: rest =>
      match front? (b :: rest) with
      | some c => c :: lossyChars (c.utf8Size - 1) rest
      | none => '\uFFFD' :: lossyChars (brokenLength (b :: rest) - 1) rest

/-- The bytes as a text for people: broken sequences show as U+FFFD. -/
def lossy (b : Bytes) : String :=
  String.ofList (lossyChars 0 b)

theorem lossyChars_eq_drop (taken : Nat) (b : Bytes) :
    lossyChars taken b = lossyChars 0 (b.drop taken) := by
  induction taken generalizing b with
  | zero => simp
  | succ n ih => cases b with
    | nil => simp [lossyChars]
    | cons x rest => simp [lossyChars, ih]

/-- Well-formed bytes are shown as the text they encode. -/
@[simp] theorem lossy_encode (s : String) : lossy (encode s) = s := by
  suffices h : ∀ cs : List Char, lossyChars 0 (encodeChars cs) = cs by
    simp [lossy, encode, h]
  intro cs
  induction cs with
  | nil => rfl
  | cons c cs ih =>
    obtain ⟨b, more, shape, size⟩ := exists_utf8EncodeChar_eq_cons c
    have front := front?_encode c (encodeChars cs)
    rw [encodeChars_cons]
    rw [shape, List.cons_append] at front ⊢
    rw [lossyChars, front]
    simp only [← size]
    rw [lossyChars_eq_drop, List.drop_left, ih]

end Utf8

end PointDriver

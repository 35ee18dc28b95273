import Mathlib.Data.Nat.Init
import Mathlib.Logic.Function.Basic
import PointDriver.Text.Utf8

/-!
# Decoding inverts encoding

The bytes of a text determine it, and only bytes that encode a text are
decoded. An ASCII character is one byte, and no other character starts with
that byte, so marks such as dashes can be looked for in the bytes.
-/

namespace PointDriver.Utf8

theorem exists_of_front? {b : Bytes} {c : Char} (h : front? b = some c) :
    ∃ rest, b = String.utf8EncodeChar c ++ rest := by
  obtain ⟨l, hl⟩ := ByteArray.exists_of_utf8DecodeChar?_eq_some h
  have ht : b.take 4 = String.utf8EncodeChar c ++ l.data.toList := by
    have hd := congrArg (fun a : ByteArray => a.data.toList) hl
    simpa [List.data_toByteArray] using hd
  refine ⟨l.data.toList ++ b.drop 4, ?_⟩
  rw [← List.append_assoc, ← ht, List.take_append_drop]

/-- The characters of a scan encode the bytes up to the place where it stopped. -/
theorem encodeChars_scan (b : Bytes) :
    encodeChars (scan 0 b).1 ++ (scan 0 b).2 = b := by
  induction hn : b.length using Nat.strong_induction_on generalizing b with
  | _ n ih =>
      cases b with
      | nil => simp [scan]
      | cons x rest =>
          rw [scan]
          cases hf : front? (x :: rest) with
          | none => simp
          | some c =>
              obtain ⟨more, hm⟩ := exists_of_front? hf
              have hd : rest.drop (c.utf8Size - 1) = more := by
                have hdrop := congrArg (List.drop c.utf8Size) hm
                rw [← String.length_utf8EncodeChar, List.drop_left,
                  String.length_utf8EncodeChar] at hdrop
                have hp := c.utf8Size_pos
                rw [← hdrop, ← List.drop_succ_cons (a := x)]
                congr 1
                omega
              have hl : more.length < n := by
                have hlen := congrArg List.length hm
                have hp := c.utf8Size_pos
                simp only [List.length_append, String.length_utf8EncodeChar] at hlen
                omega
              have hs : scan (c.utf8Size - 1) rest = scan 0 more := by rw [scan_eq_drop, hd]
              simp only [hs, encodeChars_cons, List.append_assoc]
              rw [ih more.length hl more rfl, ← hm]

theorem decode?_eq_some_iff {b : Bytes} {s : String} : decode? b = some s ↔ b = encode s := by
  constructor
  · intro h
    have hb := encodeChars_scan b
    unfold decode? at h
    split at h
    · next cs hs =>
        rw [hs] at hb
        cases h
        simpa [encode] using hb.symm
    · cases h
  · rintro rfl
    exact decode?_encode s

theorem encode_injective : Function.Injective encode := by
  intro s t h
  have hd := decode?_encode s
  rw [h, decode?_encode] at hd
  exact (Option.some.inj hd).symm

@[simp] theorem encode_inj {s t : String} : encode s = encode t ↔ s = t :=
  encode_injective.eq_iff

/-- An ASCII character as its byte. -/
theorem utf8EncodeChar_ascii {c : Char} (h : c.toNat < 128) :
    String.utf8EncodeChar c = [UInt8.ofNat c.toNat] := by
  have hs : c.utf8Size = 1 := Char.utf8Size_eq_one_iff.mpr (by
    rw [UInt32.le_iff_toNat_le]
    exact Nat.le_of_lt_succ h)
  rw [String.utf8EncodeChar_eq_singleton hs]
  rfl

/-- The first byte of an encoded text shows an ASCII character that the text starts with. -/
theorem encodeChars_head_ascii {a c : Char} {cs : List Char} {rest : Bytes}
    (ha : a.toNat < 128) (h : encodeChars (c :: cs) = UInt8.ofNat a.toNat :: rest) :
    c = a ∧ encodeChars cs = rest := by
  have hc : front? (encodeChars (c :: cs)) = some c := by
    rw [encodeChars_cons, front?_encode]
  have hr : UInt8.ofNat a.toNat :: rest = String.utf8EncodeChar a ++ rest := by
    rw [utf8EncodeChar_ascii ha, List.singleton_append]
  rw [h, hr, front?_encode] at hc
  have hac := Option.some.inj hc
  subst hac
  rw [encodeChars_cons, utf8EncodeChar_ascii ha, List.singleton_append] at h
  exact ⟨rfl, (List.cons.inj h).2⟩

/-- A text starts with the byte of an ASCII character exactly if it starts with the character. -/
theorem head?_encodeChars {a : Char} (ha : a.toNat < 128) (cs : List Char) :
    (encodeChars cs).head? = some (UInt8.ofNat a.toNat) ↔ cs.head? = some a := by
  cases cs with
  | nil => simp
  | cons c cs =>
      constructor
      · intro h
        obtain ⟨rest, hrest⟩ := List.head?_eq_some_iff.mp h
        rw [(encodeChars_head_ascii ha hrest).1]
        rfl
      · intro h
        obtain rfl := Option.some.inj h
        rw [encodeChars_cons, utf8EncodeChar_ascii ha]
        rfl

end PointDriver.Utf8

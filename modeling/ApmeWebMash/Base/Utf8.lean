-- SUMMARY: UTF-8 as a partial bijection between byte lists and character lists.
import Mathlib.Data.List.Basic
import Mathlib.Data.List.Infix

/-! # UTF-8

The core library proves encoding and decoding on `ByteArray`. The readers and
writers of this development work on lists of bytes, so the two directions are
restated there, together with the facts a line reader needs: ASCII characters
take one byte, and a byte below 128 never occurs inside another character. -/

namespace Utf8

/-- The UTF-8 bytes of a text. -/
def encode (s : List Char) : List UInt8 :=
  s.flatMap String.utf8EncodeChar

/-- The text that the bytes encode, when they are valid UTF-8. -/
def decode (bs : List UInt8) : Option (List Char) :=
  bs.toByteArray.utf8Decode?.map Array.toList

@[simp] theorem encode_nil : encode [] = [] := rfl

@[simp] theorem encode_append (s t : List Char) : encode (s ++ t) = encode s ++ encode t :=
  List.flatMap_append

theorem encode_cons (c : Char) (s : List Char) :
    encode (c :: s) = String.utf8EncodeChar c ++ encode s :=
  List.flatMap_cons

private theorem toByteArray_encode (s : List Char) : (encode s).toByteArray = s.utf8Encode := rfl

@[simp] theorem decode_encode (s : List Char) : decode (encode s) = some s := by
  simp [decode, toByteArray_encode]

/-- Decoding succeeds exactly on encodings, and inverts them. -/
theorem decode_eq_some_iff {bs : List UInt8} {s : List Char} :
    decode bs = some s ↔ encode s = bs := by
  constructor
  · intro h
    obtain ⟨a, ha, rfl⟩ := Option.map_eq_some_iff.mp h
    have hsome : bs.toByteArray.utf8Decode?.isSome := by simp [ha]
    have hget : bs.toByteArray.utf8Decode?.get hsome = a := by simp [ha]
    have henc := ByteArray.utf8Encode_get_utf8Decode? (h := hsome)
    rw [hget, ← toByteArray_encode] at henc
    exact List.toByteArray_inj.mp henc
  · rintro rfl
    exact decode_encode s

theorem encode_injective {s t : List Char} (h : encode s = encode t) : s = t := by
  have := decode_encode s
  rw [h, decode_encode] at this
  exact (Option.some.inj this).symm

theorem encode_eq_nil_iff {s : List Char} : encode s = [] ↔ s = [] := by
  constructor
  · intro h
    exact encode_injective (h.trans encode_nil.symm)
  · rintro rfl
    rfl

/-! ## ASCII -/

theorem utf8EncodeChar_of_ascii {c : Char} (h : c.toNat < 128) :
    String.utf8EncodeChar c = [c.toNat.toUInt8] := by
  have hle : c.val.toNat ≤ 127 := Nat.lt_succ_iff.mp h
  simp only [String.utf8EncodeChar, hle, ↓reduceIte]
  rfl

/-- A character outside ASCII is encoded by bytes that are all at least 128. -/
theorem le_of_mem_utf8EncodeChar {c : Char} (h : 128 ≤ c.toNat) {b : UInt8}
    (hb : b ∈ String.utf8EncodeChar c) : 128 ≤ b.toNat := by
  have hnot : ¬ c.val.toNat ≤ 127 := Nat.not_le.mpr h
  simp only [String.utf8EncodeChar, hnot, ↓reduceIte] at hb
  split at hb
  · simp only [List.mem_cons, List.not_mem_nil, or_false] at hb
    rcases hb with rfl | rfl <;> simp only [UInt8.toNat_ofNat'] <;> omega
  · split at hb
    · simp only [List.mem_cons, List.not_mem_nil, or_false] at hb
      rcases hb with rfl | rfl | rfl <;> simp only [UInt8.toNat_ofNat'] <;> omega
    · simp only [List.mem_cons, List.not_mem_nil, or_false] at hb
      rcases hb with rfl | rfl | rfl | rfl <;> simp only [UInt8.toNat_ofNat'] <;> omega

/-- An ASCII byte occurs in an encoding exactly where its character occurs. -/
theorem mem_encode_ascii {s : List Char} {c : Char} (hc : c.toNat < 128) :
    c.toNat.toUInt8 ∈ encode s ↔ c ∈ s := by
  induction s with
  | nil => simp
  | cons d s ih =>
    rw [encode_cons, List.mem_append, List.mem_cons, ih]
    refine or_congr_left ?_
    by_cases hd : d.toNat < 128
    · rw [utf8EncodeChar_of_ascii hd, List.mem_singleton]
      constructor
      · intro h
        have hnat := congrArg UInt8.toNat h
        simp only [Nat.toUInt8, UInt8.toNat_ofNat'] at hnat
        exact Char.toNat_inj.mp (by omega)
      · rintro rfl
        rfl
    · constructor
      · intro h
        have hle := le_of_mem_utf8EncodeChar (Nat.not_lt.mp hd) h
        simp only [Nat.toUInt8, UInt8.toNat_ofNat'] at hle
        omega
      · rintro rfl
        exact absurd hc hd

/-! ## Common beginnings -/

/-- The encoding is free of prefixes: texts whose encodings agree up to what
    follows them start with the same character. -/
theorem head_eq_of_encode_append {c d : Char} {s t : List Char} {xs ys : List UInt8}
    (h : encode (c :: s) ++ xs = encode (d :: t) ++ ys) : c = d := by
  have hdecode : ∀ (e : Char) (u : List Char) (zs : List UInt8),
      ByteArray.utf8DecodeChar? (encode (e :: u) ++ zs).toByteArray 0 = some e := by
    intro e u zs
    rw [encode_cons, List.append_assoc, List.toByteArray_append]
    exact ByteArray.utf8DecodeChar?_utf8EncodeChar_append
  have hc := hdecode c s xs
  rw [h, hdecode d t ys] at hc
  exact (Option.some.inj hc).symm

/-- Bytes that decode and begin an encoding decode to the beginning of its text. -/
theorem isPrefix_of_encode_append {s t : List Char} {xs : List UInt8}
    (h : encode s ++ xs = encode t) : s <+: t := by
  induction s generalizing t with
  | nil => exact List.nil_prefix
  | cons c s ih =>
    cases t with
    | nil =>
      have hnil : encode (c :: s) = [] := (List.append_eq_nil_iff.mp h).1
      exact absurd (encode_eq_nil_iff.mp hnil) (List.cons_ne_nil c s)
    | cons d t =>
      have hend : encode (c :: s) ++ xs = encode (d :: t) ++ [] := by simpa using h
      obtain rfl := head_eq_of_encode_append hend
      rw [encode_cons, encode_cons, List.append_assoc] at h
      exact List.cons_prefix_cons.mpr ⟨rfl, ih (List.append_cancel_left h)⟩

end Utf8

-- SUMMARY: Python's `unicode_escape` codec on bytes, and what its result keeps of them.
import ApmeWebMash.Base.Numeral

/-! # The codec `unicode_escape`

Decoding reads bytes as Latin-1, but for the escapes behind a backslash. The
result is a Python `str`: a list of code points, which may be surrogates. A
character outside ASCII takes several bytes in UTF-8, and each of them becomes a
character of the result. -/

namespace UnicodeEscape

/-- Exactly so many hexadecimal digits, after the value `acc`. -/
def hexDigits : Nat → Nat → List UInt8 → Option (Nat × List UInt8)
  | 0, acc, bs => some (acc, bs)
  | _ + 1, _, [] => none
  | n + 1, acc, b :: bs =>
    match Numeral.toDigit 16 (Char.ofNat b.toNat) with
    | some d => hexDigits n (acc * 16 + d) bs
    | none => none

/-- At most so many octal digits, after the value `acc`. -/
def octalDigits : Nat → Nat → List UInt8 → Nat × List UInt8
  | 0, acc, bs => (acc, bs)
  | _ + 1, acc, [] => (acc, [])
  | n + 1, acc, b :: bs =>
    match Numeral.toDigit 8 (Char.ofNat b.toNat) with
    | some d => octalDigits n (acc * 8 + d) bs
    | none => (acc, b :: bs)

section
variable (getcode : List UInt8 → Option Nat)

/-- The character named between braces; `getcode` looks it up in the Unicode
    database. -/
def named : List UInt8 → Option (Nat × List UInt8)
  | 123 :: bs =>
    match bs.dropWhile (· ≠ 125), getcode (bs.takeWhile (· ≠ 125)) with
    | _ :: rest, some code => some (code, rest)
    | _, _ => none
  | _ => none

/-- The escapes of one character, with their code points. -/
def simpleEscapes : List (Char × List Nat) := [
  ('\n', []), ('\\', [92]), ('\'', [39]), ('"', [34]), ('a', [7]), ('b', [8]), ('t', [9]),
  ('n', [10]), ('v', [11]), ('f', [12]), ('r', [13])]

/-- The escapes of hexadecimal digits, with the number of digits. -/
def hexEscapes : List (Char × Nat) := [('x', 2), ('u', 4), ('U', 8)]

/-- The escape behind a backslash: its code points, and the bytes behind it. An
    escape that is not known stands for itself. -/
def escape : List UInt8 → Option (List Nat × List UInt8)
  | [] => none
  | b :: bs =>
    let c := Char.ofNat b.toNat
    match simpleEscapes.find? (·.1 = c), hexEscapes.find? (·.1 = c) with
    | some (_, codes), _ => some (codes, bs)
    | none, some (_, n) =>
      ((hexDigits n 0 bs).filter (·.1 ≤ 0x10ffff)).map fun (code, rest) => ([code], rest)
    | none, none =>
      if c = 'N' then (named getcode bs).map fun (code, rest) => ([code], rest)
      else
        match Numeral.toDigit 8 c with
        | some d => some ([(octalDigits 2 d bs).1], (octalDigits 2 d bs).2)
        | none => some ([92, b.toNat], bs)

/-- `bytes.decode("unicode_escape")`: `none` where Python raises. -/
def decode (bytes : List UInt8) : Option (List Nat) :=
  match bytes with
  | [] => some []
  | b :: bs =>
    if b = 92 then
      match escape getcode bs with
      | some (codes, rest) =>
        if rest.length < bs.length then (decode rest).map (codes ++ ·) else none
      | none => none
    else (decode bs).map (b.toNat :: ·)
termination_by bytes.length
decreasing_by
  · simp only [List.length_cons]
    omega
  · exact Nat.lt_succ_self _

end

/-! ## What decoding keeps -/

/-- The bytes outside ASCII. -/
def highBytes (bytes : List UInt8) : Nat := bytes.countP fun b => 128 ≤ b.toNat

/-- The code points outside ASCII. -/
def highCodes (codes : List Nat) : Nat := codes.countP fun code => 128 ≤ code

/-- The database names characters in ASCII. -/
def NamesAscii (getcode : List UInt8 → Option Nat) : Prop :=
  ∀ name, (getcode name).isSome → ∀ b ∈ name, b.toNat < 128

/-- The bytes `used` of an escape have been read, and the codes keep no fewer
    characters outside ASCII and are no more than the bytes with the backslash. -/
structure Reads (bytes : List UInt8) (codes : List Nat) (rest : List UInt8) : Prop where
  exists_used : ∃ used, bytes = used ++ rest ∧ used ≠ [] ∧ codes.length ≤ used.length + 1 ∧
    highBytes used ≤ highCodes codes

variable {getcode : List UInt8 → Option Nat} {bytes rest : List UInt8} {codes : List Nat}

@[simp] theorem highBytes_append (xs ys : List UInt8) :
    highBytes (xs ++ ys) = highBytes xs + highBytes ys := List.countP_append

@[simp] theorem highBytes_cons (b : UInt8) (bs : List UInt8) :
    highBytes (b :: bs) = highBytes bs + if 128 ≤ b.toNat then 1 else 0 := by
  simp [highBytes, List.countP_cons]

@[simp] theorem highCodes_append (xs ys : List Nat) :
    highCodes (xs ++ ys) = highCodes xs + highCodes ys := List.countP_append

@[simp] theorem highCodes_cons (code : Nat) (codes : List Nat) :
    highCodes (code :: codes) = highCodes codes + if 128 ≤ code then 1 else 0 := by
  simp [highCodes, List.countP_cons]

theorem highBytes_eq_zero {used : List UInt8} (h : ∀ b ∈ used, b.toNat < 128) :
    highBytes used = 0 :=
  List.countP_eq_zero.mpr fun b hb => by simpa using h b hb

theorem toNat_ofByte (b : UInt8) : (Char.ofNat b.toNat).toNat = b.toNat := by
  have hvalid : b.toNat.isValidChar := .inl (b.toNat_lt.trans (by decide))
  rw [Char.ofNat, dif_pos hvalid]
  rfl

/-- A digit is an ASCII byte. -/
theorem toNat_lt_of_toDigit {radix d : Nat} {b : UInt8}
    (h : Numeral.toDigit radix (Char.ofNat b.toNat) = some d) : b.toNat < 128 := by
  have halnum := Numeral.isAlphanum_of_toDigit (by rw [h]; rfl)
  have hbounds := (Str.toNat_of_isAlphanum halnum).2
  rw [toNat_ofByte] at hbounds
  omega

theorem hexDigits_eq_some {n acc code : Nat} (h : hexDigits n acc bytes = some (code, rest)) :
    ∃ used, bytes = used ++ rest ∧ ∀ b ∈ used, b.toNat < 128 := by
  induction n generalizing acc bytes with
  | zero =>
    obtain ⟨-, rfl⟩ := Prod.mk.inj (Option.some.inj h)
    exact ⟨[], rfl, fun b hb => by cases hb⟩
  | succ n ih =>
    cases bytes with
    | nil => cases h
    | cons b bs =>
      rw [hexDigits] at h
      split at h
      · rename_i hdigit
        obtain ⟨used, rfl, hused⟩ := ih h
        exact ⟨b :: used, rfl, List.forall_mem_cons.mpr ⟨toNat_lt_of_toDigit hdigit, hused⟩⟩
      · cases h

theorem octalDigits_eq {n acc code : Nat} (h : octalDigits n acc bytes = (code, rest)) :
    ∃ used, bytes = used ++ rest ∧ ∀ b ∈ used, b.toNat < 128 := by
  induction n generalizing acc bytes with
  | zero =>
    obtain ⟨-, rfl⟩ := Prod.mk.inj h
    exact ⟨[], rfl, fun b hb => by cases hb⟩
  | succ n ih =>
    cases bytes with
    | nil =>
      obtain ⟨-, rfl⟩ := Prod.mk.inj h
      exact ⟨[], rfl, fun b hb => by cases hb⟩
    | cons b bs =>
      rw [octalDigits] at h
      split at h
      · rename_i hdigit
        obtain ⟨used, rfl, hused⟩ := ih h
        exact ⟨b :: used, rfl, List.forall_mem_cons.mpr ⟨toNat_lt_of_toDigit hdigit, hused⟩⟩
      · obtain ⟨-, rfl⟩ := Prod.mk.inj h
        exact ⟨[], rfl, fun b hb => by cases hb⟩

theorem named_eq_some (hnames : NamesAscii getcode) {code : Nat}
    (h : named getcode bytes = some (code, rest)) :
    ∃ used, bytes = used ++ rest ∧ ∀ b ∈ used, b.toNat < 128 := by
  unfold named at h
  split at h
  · rename_i bs
    split at h
    · rename_i brace rest' code' hdrop hcode
      obtain ⟨rfl, rfl⟩ := Prod.mk.inj (Option.some.inj h)
      -- what ends the name is the closing brace
      have hbrace : brace = 125 := by
        have hhead := List.head?_dropWhile_not (· ≠ (125 : UInt8)) bs
        rw [hdrop] at hhead
        simpa using hhead
      refine ⟨123 :: (bs.takeWhile (· ≠ 125) ++ [125]), ?_, ?_⟩
      · have hbs := List.takeWhile_append_dropWhile (p := (· ≠ (125 : UInt8))) (l := bs)
        rw [hdrop, hbrace] at hbs
        conv_lhs => rw [← hbs]
        simp
      · have hname := hnames _ (by rw [hcode]; rfl)
        intro b hb
        rcases List.mem_cons.mp hb with rfl | hb
        · decide
        · rcases List.mem_append.mp hb with hb | hb
          · exact hname b hb
          · rw [List.mem_singleton.mp hb]
            decide
    · cases h
  · cases h

/-- Behind an ASCII letter, an escape of ASCII bytes for one code. -/
theorem reads_code {b : UInt8} {bs : List UInt8} {code : Nat} (hb : b.toNat < 128)
    (h : ∃ used, bs = used ++ rest ∧ ∀ b ∈ used, b.toNat < 128) : Reads (b :: bs) [code] rest := by
  obtain ⟨used, rfl, hused⟩ := h
  refine ⟨b :: used, rfl, List.cons_ne_nil _ _, by simp, ?_⟩
  rw [highBytes_eq_zero (List.forall_mem_cons.mpr ⟨hb, hused⟩)]
  exact Nat.zero_le _

/-- An escape reads at least a byte. -/
theorem reads_escape (hnames : NamesAscii getcode)
    (h : escape getcode bytes = some (codes, rest)) : Reads bytes codes rest := by
  cases bytes with
  | nil => cases h
  | cons b bs =>
    have hbyte := toNat_ofByte b
    have hascii : ∀ {c : Char}, c = Char.ofNat b.toNat → c.toNat < 128 → b.toNat < 128 := by
      rintro c rfl hlt
      rwa [hbyte] at hlt
    simp only [escape] at h
    split at h
    · rename_i hfind
      obtain ⟨rfl, rfl⟩ := Prod.mk.inj (Option.some.inj h)
      have hmem := List.mem_of_find?_eq_some hfind
      have hc := by simpa using List.find?_some hfind
      have hall : ∀ e ∈ simpleEscapes, e.1.toNat < 128 ∧ e.2.length ≤ 1 := by decide
      obtain ⟨hlt, hlength⟩ := hall _ hmem
      refine ⟨[b], rfl, List.cons_ne_nil _ _, Nat.le_succ_of_le hlength, ?_⟩
      rw [highBytes_eq_zero (by simpa using hascii hc hlt)]
      exact Nat.zero_le _
    · rename_i hfind
      have hmem := List.mem_of_find?_eq_some hfind
      have hc := by simpa using List.find?_some hfind
      have hall : ∀ e ∈ hexEscapes, e.1.toNat < 128 := by decide
      obtain ⟨⟨code, rest'⟩, hhex, heq⟩ := Option.map_eq_some_iff.mp h
      obtain ⟨rfl, rfl⟩ := Prod.mk.inj heq
      exact reads_code (hascii hc (hall _ hmem))
        (hexDigits_eq_some (Option.filter_eq_some_iff.mp hhex).1)
    · split at h
      · rename_i hN
        obtain ⟨⟨code, rest'⟩, hnamed, heq⟩ := Option.map_eq_some_iff.mp h
        obtain ⟨rfl, rfl⟩ := Prod.mk.inj heq
        exact reads_code (hascii hN.symm (by decide)) (named_eq_some hnames hnamed)
      · split at h
        -- an escape of digits, or a backslash that escapes nothing and stays
        · rename_i hdigit
          obtain ⟨rfl, rfl⟩ := Prod.mk.inj (Option.some.inj h)
          exact reads_code (toNat_lt_of_toDigit hdigit) (octalDigits_eq rfl)
        · obtain ⟨rfl, rfl⟩ := Prod.mk.inj (Option.some.inj h)
          refine ⟨[b], rfl, List.cons_ne_nil _ _, Nat.le_refl _, ?_⟩
          rw [highBytes_cons, highCodes_cons, highCodes_cons]
          exact Nat.add_le_add_right (Nat.zero_le _) _

/-- Decoding yields no more characters than there are bytes, and keeps each byte
    outside ASCII. -/
theorem decode_eq_some (hnames : NamesAscii getcode) (h : decode getcode bytes = some codes) :
    codes.length ≤ bytes.length ∧ highBytes bytes ≤ highCodes codes := by
  fun_induction decode getcode bytes generalizing codes with
  | case1 =>
    obtain rfl := Option.some.inj h
    exact ⟨Nat.le_refl _, Nat.le_refl _⟩
  | case2 bs codes' rest hescape hlt ih =>
    obtain ⟨tail, htail, rfl⟩ := Option.map_eq_some_iff.mp h
    obtain ⟨hlength, hhigh⟩ := ih htail
    obtain ⟨used, rfl, -, hused, hhigh'⟩ := (reads_escape hnames hescape).exists_used
    constructor
    · simp only [List.length_append, List.length_cons]
      omega
    · have hbackslash : ¬ 128 ≤ (92 : UInt8).toNat := by decide
      rw [highBytes_cons, if_neg hbackslash, highBytes_append, highCodes_append]
      omega
  | case3 => cases h
  | case4 => cases h
  | case5 b bs hb ih =>
    obtain ⟨tail, htail, rfl⟩ := Option.map_eq_some_iff.mp h
    obtain ⟨hlength, hhigh⟩ := ih htail
    exact ⟨Nat.succ_le_succ hlength, by rw [highBytes_cons, highCodes_cons]; omega⟩

/-! ## Quoted texts -/

/-- The code points of a text. -/
def codePoints (s : Str) : List Nat := s.map Char.toNat

/-- In UTF-8, a character outside ASCII is two bytes or more. -/
theorem highBytes_encode (s : Str) : 2 * highCodes (codePoints s) ≤ highBytes (Utf8.encode s) := by
  induction s with
  | nil => exact Nat.le_refl 0
  | cons c s ih =>
    rw [Utf8.encode_cons, highBytes_append, codePoints, List.map_cons, highCodes_cons, ← codePoints]
    split
    · rename_i hc
      have hall : highBytes (String.utf8EncodeChar c) = (String.utf8EncodeChar c).length :=
        List.countP_eq_length.mpr fun b hb => by
          simpa using Utf8.le_of_mem_utf8EncodeChar hc hb
      have hsize : 2 ≤ (String.utf8EncodeChar c).length := by
        have hnot : ¬ c.val.toNat ≤ 127 := Nat.not_le.mpr hc
        simp only [String.utf8EncodeChar, hnot, ↓reduceIte]
        split
        · exact Nat.le_refl 2
        · split <;> simp
      omega
    · omega

/-- Without such characters it is one byte for each character. -/
theorem length_encode {s : Str} (h : highCodes (codePoints s) = 0) :
    (Utf8.encode s).length = s.length := by
  induction s with
  | nil => rfl
  | cons c s ih =>
    rw [codePoints, List.map_cons, highCodes_cons, ← codePoints] at h
    have hc : c.toNat < 128 := by
      by_contra hc
      rw [if_pos (Nat.not_lt.mp hc)] at h
      cases h
    rw [Utf8.encode_cons, Utf8.utf8EncodeChar_of_ascii hc, List.singleton_append, List.length_cons,
      List.length_cons, ih (by omega)]

/-- A text never decodes to itself between quotes. -/
theorem decode_ne_quoted (hnames : NamesAscii getcode) (inner : Str) :
    decode getcode (Utf8.encode inner) ≠ some (codePoints ('"' :: inner ++ ['"'])) := by
  intro h
  obtain ⟨hlength, hhigh⟩ := decode_eq_some hnames h
  have hquoted : highCodes (codePoints ('"' :: inner ++ ['"'])) = highCodes (codePoints inner) := by
    have hquote : ¬ 128 ≤ '"'.toNat := by decide
    simp only [codePoints, List.map_cons, List.map_append, List.map_nil, highCodes_cons,
      highCodes_append, List.cons_append, if_neg hquote]
    rfl
  have hbytes := highBytes_encode inner
  rw [hquoted] at hhigh
  have hnone : highCodes (codePoints inner) = 0 := by omega
  rw [length_encode hnone] at hlength
  simp only [codePoints, List.length_map, List.cons_append, List.length_cons, List.length_append,
    List.length_nil] at hlength
  omega

end UnicodeEscape

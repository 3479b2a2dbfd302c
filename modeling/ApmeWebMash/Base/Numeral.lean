-- SUMMARY: Unsigned machine integers as text: `from_str_radix` with its overflow check, and decimal display.
import Mathlib.Algebra.Ring.Nat
import ApmeWebMash.Base.Text

/-! # Numerals

Rust parses an unsigned integer digit by digit and fails as soon as a checked
multiplication or addition overflows. A leading `+` is accepted. -/

namespace Numeral

/-- `usize::MAX` on the 64-bit targets. -/
def usizeMax : Nat := 2 ^ 64 - 1

/-- `usize::saturating_add`. -/
def saturatingAdd (a b : Nat) : Nat :=
  min (a + b) usizeMax

/-- `char::to_digit`. -/
def toDigit (radix : Nat) (c : Char) : Option Nat :=
  let digit :=
    if c.isDigit then some (c.toNat - 48)
    else if c.isLower then some (c.toNat - 87)
    else if c.isUpper then some (c.toNat - 55)
    else none
  digit.filter (· < radix)

/-- The digits of `s` after the value `acc`, failing beyond `max`. -/
def foldDigits (radix max acc : Nat) : Str → Option Nat
  | [] => some acc
  | c :: s =>
    match toDigit radix c with
    | none => none
    | some d =>
      if acc * radix + d ≤ max then foldDigits radix max (acc * radix + d) s else none

/-- `from_str_radix` of an unsigned type with maximum `max`. -/
def fromStrRadix (radix max : Nat) : Str → Option Nat
  | [] => none
  | '+' :: s => if s = [] then none else foldDigits radix max 0 s
  | s => foldDigits radix max 0 s

/-- The decimal form that `Display` writes. -/
def decimal (n : Nat) : Str :=
  Nat.toDigits 10 n

/-- Below its maximum the addition is exact. -/
theorem saturatingAdd_eq {a b m : Nat} (hm : m < usizeMax) (h : a + b ≤ m) :
    saturatingAdd a b = a + b :=
  min_eq_left (h.trans hm.le)

/-- A bound below the maximum is one on the sum. -/
theorem saturatingAdd_le_iff {a b m : Nat} (hm : m < usizeMax) :
    saturatingAdd a b ≤ m ↔ a + b ≤ m := by
  rw [saturatingAdd]
  omega

/-! ## Numerals and their values -/

/-- The number that the digits of `s` write after `acc`, without a bound. -/
def digitsValue (radix acc : Nat) : Str → Nat
  | [] => acc
  | c :: s => digitsValue radix (acc * radix + (toDigit radix c).getD 0) s

/-- `s` writes `n`: a non-empty string of digits with value `n`, in either case
    and with any number of leading zeros. -/
structure Writes (radix : Nat) (s : Str) (n : Nat) : Prop where
  ne_nil : s ≠ []
  digits : ∀ c ∈ s, (toDigit radix c).isSome
  value : digitsValue radix 0 s = n

/-- A non-empty string of digits, and nothing else. -/
structure IsNumeral (radix : Nat) (s : Str) : Prop where
  ne_nil : s ≠ []
  digits : ∀ c ∈ s, (toDigit radix c).isSome

theorem le_digitsValue {radix acc : Nat} (hradix : 0 < radix) (s : Str) :
    acc ≤ digitsValue radix acc s := by
  induction s generalizing acc with
  | nil => exact Nat.le_refl acc
  | cons c s ih =>
    refine le_trans ?_ ih
    exact le_trans (Nat.le_mul_of_pos_right acc hradix) (Nat.le_add_right _ _)

theorem foldDigits_eq_some {radix max acc : Nat} (hradix : 0 < radix) {s : Str}
    (hdigits : ∀ c ∈ s, (toDigit radix c).isSome) (hmax : digitsValue radix acc s ≤ max) :
    foldDigits radix max acc s = some (digitsValue radix acc s) := by
  induction s generalizing acc with
  | nil => rfl
  | cons c s ih =>
    obtain ⟨d, hd⟩ := Option.isSome_iff_exists.mp (hdigits c List.mem_cons_self)
    simp only [digitsValue, hd, Option.getD_some] at hmax
    have hle : acc * radix + d ≤ max := le_trans (le_digitsValue hradix s) hmax
    simp only [foldDigits, digitsValue, hd, Option.getD_some, hle, ↓reduceIte]
    exact ih (fun c' hc' => hdigits c' (List.mem_cons_of_mem _ hc')) hmax

/-- A successful parse of a text bounds the parse of each of its beginnings. -/
theorem foldDigits_append {radix max acc n : Nat} (hradix : 0 < radix) {s t : Str}
    (h : foldDigits radix max acc (s ++ t) = some n) :
    ∃ m, foldDigits radix max acc s = some m ∧ m ≤ n := by
  have hacc : ∀ {acc : Nat} {s : Str}, foldDigits radix max acc s = some n → acc ≤ n := by
    intro acc s h
    induction s generalizing acc with
    | nil => exact Nat.le_of_eq (Option.some.inj h)
    | cons c s ih =>
      simp only [foldDigits] at h
      split at h
      · cases h
      · split at h
        · exact le_trans (le_trans (Nat.le_mul_of_pos_right acc hradix) (Nat.le_add_right _ _)) (ih h)
        · cases h
  induction s generalizing acc with
  | nil => exact ⟨acc, rfl, hacc h⟩
  | cons c s ih =>
    simp only [List.cons_append, foldDigits] at h ⊢
    split at h
    · cases h
    · split at h
      · rename_i d hd hle
        simpa only [hle, ↓reduceIte] using ih h
      · cases h

theorem foldDigits_digits {radix max acc n : Nat} {s : Str}
    (h : foldDigits radix max acc s = some n) : ∀ c ∈ s, (toDigit radix c).isSome := by
  induction s generalizing acc with
  | nil => intro c hc; cases hc
  | cons c s ih =>
    simp only [foldDigits] at h
    split at h
    · cases h
    · rename_i d hd
      split at h
      · intro c' hc'
        rcases List.mem_cons.mp hc' with rfl | hc'
        · simp [hd]
        · exact ih h c' hc'
      · cases h

theorem isAlphanum_of_toDigit {radix : Nat} {c : Char} (h : (toDigit radix c).isSome) :
    c.isAlphanum := by
  obtain ⟨d, hd⟩ := Option.isSome_iff_exists.mp h
  have hsome := (Option.filter_eq_some_iff.mp hd).1
  rw [Str.isAlphanum_iff]
  split at hsome
  · exact .inr ‹_›
  · split at hsome
    · exact .inl (.inr ‹_›)
    · split at hsome
      · exact .inl (.inl ‹_›)
      · cases hsome

namespace Writes

variable {radix : Nat} {s : Str} {n : Nat}

theorem isAlphanum (h : Writes radix s n) : ∀ c ∈ s, c.isAlphanum :=
  fun c hc => isAlphanum_of_toDigit (h.digits c hc)

theorem not_mem (h : Writes radix s n) {c : Char} (hc : c.isAlphanum = false) : c ∉ s := by
  intro hmem
  simp [h.isAlphanum c hmem] at hc

theorem isWhitespace_eq_false (h : Writes radix s n) : ∀ c ∈ s, Str.isWhitespace c = false :=
  fun c hc => Str.isWhitespace_eq_false_of_isAlphanum (h.isAlphanum c hc)

/-- A numeral within the bound parses to the number it writes. -/
theorem fromStrRadix_eq (h : Writes radix s n) (hradix : 0 < radix) {max : Nat} (hmax : n ≤ max) :
    fromStrRadix radix max s = some n := by
  have hfold := foldDigits_eq_some hradix h.digits (h.value ▸ hmax)
  rw [h.value] at hfold
  cases s with
  | nil => exact absurd rfl h.ne_nil
  | cons c s =>
    have hplus : c ≠ '+' := by
      rintro rfl
      exact h.not_mem (c := '+') (by decide) List.mem_cons_self
    rw [fromStrRadix]
    · exact hfold
    · simp
    · intro t heq
      exact hplus (List.cons.inj heq).1

end Writes

theorem foldDigits_value {radix max acc n : Nat} {s : Str} (hacc : acc ≤ max)
    (h : foldDigits radix max acc s = some n) : digitsValue radix acc s = n ∧ n ≤ max := by
  induction s generalizing acc with
  | nil =>
    obtain rfl := Option.some.inj h
    exact ⟨rfl, hacc⟩
  | cons c s ih =>
    simp only [foldDigits] at h
    split at h
    · cases h
    · rename_i d hd
      split at h
      · rename_i hle
        simpa only [digitsValue, hd, Option.getD_some] using ih hle h
      · cases h

theorem writes_of_foldDigits {radix max n : Nat} {s : Str} (hne : s ≠ [])
    (h : foldDigits radix max 0 s = some n) : Writes radix s n ∧ n ≤ max := by
  obtain ⟨hvalue, hle⟩ := foldDigits_value (Nat.zero_le max) h
  exact ⟨⟨hne, foldDigits_digits h, hvalue⟩, hle⟩

/-- What parses is a numeral within the bound, or such a numeral behind a sign. -/
theorem fromStrRadix_eq_some_iff {radix max n : Nat} (hradix : 0 < radix) {s : Str} :
    fromStrRadix radix max s = some n ↔
      n ≤ max ∧ (Writes radix s n ∨ ∃ digits, s = '+' :: digits ∧ Writes radix digits n) := by
  constructor
  · intro h
    rw [fromStrRadix.eq_def] at h
    split at h
    · cases h
    · rename_i digits
      split at h
      · cases h
      · rename_i hne
        obtain ⟨hwrites, hle⟩ := writes_of_foldDigits hne h
        exact ⟨hle, .inr ⟨digits, rfl, hwrites⟩⟩
    · rename_i hne _
      obtain ⟨hwrites, hle⟩ := writes_of_foldDigits hne h
      exact ⟨hle, .inl hwrites⟩
  · rintro ⟨hle, hwrites | ⟨digits, rfl, hwrites⟩⟩
    · exact hwrites.fromStrRadix_eq hradix hle
    · rw [fromStrRadix, if_neg hwrites.ne_nil, ← hwrites.value]
      exact foldDigits_eq_some hradix hwrites.digits (hwrites.value ▸ hle)

/-- A text that parses is a numeral unless it begins with a sign. -/
theorem isNumeral_iff_of_fromStrRadix {radix max n : Nat} (hradix : 0 < radix) {s : Str}
    (h : fromStrRadix radix max s = some n) : IsNumeral radix s ↔ s.head? ≠ some '+' := by
  constructor
  · intro hnumeral hhead
    obtain ⟨digits, rfl⟩ := List.head?_eq_some_iff.mp hhead
    exact absurd (isAlphanum_of_toDigit (hnumeral.digits '+' List.mem_cons_self)) (by decide)
  · intro hhead
    rcases ((fromStrRadix_eq_some_iff hradix).mp h).2 with hwrites | ⟨digits, rfl, -⟩
    · exact ⟨hwrites.ne_nil, hwrites.digits⟩
    · exact absurd rfl hhead

/-- The characters of a text that parses are digits, after an optional sign. -/
theorem mem_of_fromStrRadix {radix max n : Nat} {s : Str} (h : fromStrRadix radix max s = some n) :
    ∀ c ∈ s, c = '+' ∨ (toDigit radix c).isSome := by
  intro c hc
  rw [fromStrRadix.eq_def] at h
  split at h
  · cases h
  · split at h
    · cases h
    · rcases List.mem_cons.mp hc with rfl | hc
      · exact .inl rfl
      · exact .inr (foldDigits_digits h c hc)
  · exact .inr (foldDigits_digits h c hc)

/-- Cutting a numeral short never yields a larger number. -/
theorem fromStrRadix_le_of_append {radix max m n : Nat} (hradix : 0 < radix) {s t : Str}
    (hfull : fromStrRadix radix max (s ++ t) = some n) (hcut : fromStrRadix radix max s = some m) :
    m ≤ n := by
  rw [fromStrRadix.eq_def] at hcut
  split at hcut
  · cases hcut
  · rename_i s
    split at hcut
    · cases hcut
    · rename_i hne
      rw [List.cons_append, fromStrRadix, if_neg (by simp [hne])] at hfull
      obtain ⟨m', hm', hle⟩ := foldDigits_append hradix hfull
      rw [hm'] at hcut
      exact (Option.some.inj hcut) ▸ hle
  · rename_i hne hplus
    rw [fromStrRadix.eq_def] at hfull
    split at hfull
    · cases hfull
    · rename_i s' heq
      cases s with
      | nil => exact absurd rfl hne
      | cons c s => exact absurd (by rw [(List.cons.inj heq).1]) (hplus s)
    · obtain ⟨m', hm', hle⟩ := foldDigits_append hradix hfull
      rw [hm'] at hcut
      exact (Option.some.inj hcut) ▸ hle

/-! ## Decimal display -/

theorem digitsValue_append {radix acc : Nat} (s t : Str) :
    digitsValue radix acc (s ++ t) = digitsValue radix (digitsValue radix acc s) t := by
  induction s generalizing acc with
  | nil => rfl
  | cons c s ih => simp only [List.cons_append, digitsValue, ih]

theorem toDigit_digitChar {d : Nat} (h : d < 10) : toDigit 10 d.digitChar = some d := by
  have hall : ∀ d : Fin 10, toDigit 10 d.val.digitChar = some d.val := by decide
  exact hall ⟨d, h⟩

theorem isDigit_decimal (n : Nat) : ∀ c ∈ decimal n, c.isDigit :=
  fun _ hc => Nat.isDigit_of_mem_toDigits (by decide) (by decide) hc

/-- Only the decimal form of zero begins with a zero. -/
theorem head_decimal {n : Nat} (hn : n ≠ 0) : (decimal n).head? ≠ some '0' := by
  induction n using Nat.strong_induction_on with
  | _ n ih =>
    by_cases hlt : n < 10
    · have hall : ∀ d : Fin 10, d.val ≠ 0 → d.val.digitChar ≠ '0' := by decide
      rw [decimal, Nat.toDigits_of_lt_base hlt]
      simpa using hall ⟨n, hlt⟩ hn
    · rw [decimal, Nat.toDigits_of_base_le (by decide) (Nat.not_lt.mp hlt),
        List.head?_append_of_ne_nil _ Nat.toDigits_ne_nil]
      exact ih (n / 10) (by omega) (by omega)

theorem writes_decimal (n : Nat) : Writes 10 (decimal n) n := by
  refine ⟨Nat.toDigits_ne_nil, ?_, ?_⟩
  · intro c hc
    have hdigit := isDigit_decimal n c hc
    have hlt : c.toNat - 48 < 10 := by
      simp only [Char.isDigit, Bool.and_eq_true, decide_eq_true_eq, UInt32.le_iff_toNat_le] at hdigit
      have hval : c.toNat = c.val.toNat := rfl
      have h9 : '9'.val.toNat = 57 := rfl
      simp at hdigit
      omega
    simp [toDigit, hdigit, Option.filter, hlt]
  · induction n using Nat.strong_induction_on with
    | _ n ih =>
      by_cases hn : n < 10
      · rw [decimal, Nat.toDigits_of_lt_base hn]
        simp [digitsValue, toDigit_digitChar hn]
      · have hge : 10 ≤ n := Nat.not_lt.mp hn
        have hmod : n % 10 < 10 := Nat.mod_lt n (by decide)
        rw [decimal, Nat.toDigits_of_base_le (by decide) hge, digitsValue_append]
        have hdiv := ih (n / 10) (Nat.div_lt_self (by omega) (by decide))
        rw [decimal] at hdiv
        simp only [hdiv, digitsValue, toDigit_digitChar hmod, Option.getD_some]
        omega

theorem length_decimal_le {n k : Nat} (hk : 0 < k) (h : n < 10 ^ k) : (decimal n).length ≤ k :=
  (Nat.length_toDigits_le_iff (by decide) hk).mpr h

end Numeral

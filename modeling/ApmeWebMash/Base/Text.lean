-- SUMMARY: Rust string slices as lists of characters, with the operations of `str` and `char` the program calls.
import Mathlib.Data.Char
import Mathlib.Data.List.DropRight
import Mathlib.Data.List.Infix
import Mathlib.Data.List.Lex
import ApmeWebMash.Base.Utf8

/-! # Text

A Rust `str` is UTF-8, so it is determined by its characters. Everything the
program does with a string is a function of that list, except `str::len`, which
counts bytes. -/

/-- A Rust `str` or `String`: the list of its characters. -/
abbrev Str := List Char

/-- String literals denote their characters. -/
instance : Coe String Str := ⟨String.toList⟩

namespace Str

/-- What holds of every character of a text is found by running through it. -/
theorem forall_mem {p : Char → Prop} [DecidablePred p] {s : Str}
    (h : s.all fun c => decide (p c)) : ∀ c ∈ s, p c := fun c hc =>
  of_decide_eq_true (List.all_eq_true.mp h c hc)

/-! ## Character classes -/

/-- `char::is_whitespace`: the Unicode property `White_Space`. -/
def isWhitespace (c : Char) : Bool :=
  let n := c.toNat
  (9 ≤ n && n ≤ 13) || n == 32 || n == 0x85 || n == 0xa0 || n == 0x1680 ||
    (0x2000 ≤ n && n ≤ 0x200a) || n == 0x2028 || n == 0x2029 || n == 0x202f ||
    n == 0x205f || n == 0x3000

/-- `char::is_control`: the Unicode category `Cc`. -/
def isControl (c : Char) : Bool :=
  c.toNat < 32 || (127 ≤ c.toNat && c.toNat < 160)

/-- A printable ASCII character, the space included. -/
def isVisibleAscii (c : Char) : Bool :=
  32 ≤ c.toNat && c.toNat < 127

theorem isUpper_iff {c : Char} : c.isUpper ↔ 65 ≤ c.toNat ∧ c.toNat ≤ 90 :=
  decide_eq_true_iff

theorem isLower_iff {c : Char} : c.isLower ↔ 97 ≤ c.toNat ∧ c.toNat ≤ 122 := by
  change (decide (97 ≤ c.toNat) && decide (c.toNat ≤ 122)) = true ↔ _
  rw [Bool.and_eq_true, decide_eq_true_iff, decide_eq_true_iff]

theorem isDigit_iff {c : Char} : c.isDigit ↔ 48 ≤ c.toNat ∧ c.toNat ≤ 57 :=
  Char.isDigit_iff_toNat

theorem isAlphanum_iff {c : Char} : c.isAlphanum ↔ (c.isUpper ∨ c.isLower) ∨ c.isDigit :=
  (Bool.or_eq_true _ _).to_iff.trans (or_congr_left (Bool.or_eq_true _ _).to_iff)

theorem toNat_of_isAlphanum {c : Char} (h : c.isAlphanum) : 47 < c.toNat ∧ c.toNat < 123 := by
  rw [isAlphanum_iff, isUpper_iff, isLower_iff, isDigit_iff] at h
  omega

theorem isWhitespace_eq_false_of_visible {c : Char} (h : 32 < c.toNat) (h' : c.toNat < 128) :
    isWhitespace c = false := by
  simp only [isWhitespace, Bool.or_eq_false_iff, Bool.and_eq_false_iff, decide_eq_false_iff_not,
    beq_eq_false_iff_ne]
  omega

theorem isWhitespace_eq_false_of_isAlphanum {c : Char} (h : c.isAlphanum) :
    isWhitespace c = false := by
  obtain ⟨hlow, hhigh⟩ := toNat_of_isAlphanum h
  exact isWhitespace_eq_false_of_visible (by omega) (by omega)

/-! ## Length -/

/-- `str::len`: the number of bytes of the UTF-8 encoding. -/
def len (s : Str) : Nat :=
  (Utf8.encode s).length

@[simp] theorem len_nil : len [] = 0 := rfl

@[simp] theorem len_append (s t : Str) : len (s ++ t) = len s + len t := by
  simp [len]

@[simp] theorem len_cons (c : Char) (s : Str) : len (c :: s) = c.utf8Size + len s := by
  simp [len, Utf8.encode_cons]

theorem len_le_of_isInfix {s t : Str} (h : s <:+: t) : len s ≤ len t := by
  obtain ⟨a, b, rfl⟩ := h
  simp only [len_append]
  omega

theorem length_le_len (s : Str) : s.length ≤ len s := by
  induction s with
  | nil => simp
  | cons c s ih =>
    have := c.utf8Size_pos
    simp only [List.length_cons, len_cons]
    omega

theorem utf8Size_of_ascii {c : Char} (h : c.toNat < 128) : c.utf8Size = 1 :=
  Char.utf8Size_eq_one_iff.mpr (UInt32.le_iff_toNat_le.mpr (Nat.le_of_lt_succ h))

/-- In ASCII a character is a byte. -/
theorem len_of_ascii {s : Str} (h : ∀ c ∈ s, c.toNat < 128) : len s = s.length := by
  induction s with
  | nil => rfl
  | cons c s ih =>
    have hs := ih fun d hd => h d (List.mem_cons_of_mem _ hd)
    rw [len_cons, utf8Size_of_ascii (h c List.mem_cons_self), hs, List.length_cons, Nat.add_comm]

/-! ## Trimming -/

/-- `str::trim`. -/
def trim (s : Str) : Str :=
  (s.dropWhile isWhitespace).rdropWhile isWhitespace

/-- Trimming removes white space on both sides and nothing else. -/
theorem exists_trim (s : Str) :
    ∃ l r : Str, s = l ++ trim s ++ r ∧ (∀ c ∈ l, isWhitespace c) ∧ (∀ c ∈ r, isWhitespace c) := by
  refine ⟨s.takeWhile isWhitespace, (s.dropWhile isWhitespace).rtakeWhile isWhitespace,
    ?_, fun c hc => List.mem_takeWhile_imp hc, fun c hc => List.mem_rtakeWhile_imp hc⟩
  rw [trim, List.append_assoc, List.rdropWhile_append_rtakeWhile, List.takeWhile_append_dropWhile]

theorem trim_isInfix (s : Str) : trim s <:+: s := by
  obtain ⟨l, r, hs, _, _⟩ := exists_trim s
  exact ⟨l, r, hs.symm⟩

theorem mem_of_mem_trim {s : Str} {c : Char} (h : c ∈ trim s) : c ∈ s :=
  (trim_isInfix s).subset h

theorem trim_eq_self {s : Str} (h : ∀ c ∈ s, isWhitespace c = false) : trim s = s := by
  have hdrop : s.dropWhile isWhitespace = s := by
    cases s with
    | nil => rfl
    | cons c s => simp [h c List.mem_cons_self]
  rw [trim, hdrop, List.rdropWhile_eq_self_iff]
  intro hne
  simp [h _ (List.getLast_mem hne)]

/-- What neither begins nor ends with white space is not cut. -/
theorem trim_eq_self_of_ends {s : Str} (hhead : ∀ c, s.head? = some c → isWhitespace c = false)
    (hlast : ∀ c, s.getLast? = some c → isWhitespace c = false) : trim s = s := by
  have hdrop : s.dropWhile isWhitespace = s := by
    cases s with
    | nil => rfl
    | cons c s => simp [hhead c rfl]
  rw [trim, hdrop, List.rdropWhile_eq_self_iff]
  intro hne
  simp [hlast _ (List.getLast?_eq_some_getLast hne)]

@[simp] theorem trim_trim (s : Str) : trim (trim s) = trim s := by
  have hdrop : (trim s).dropWhile isWhitespace = trim s := by
    rw [List.dropWhile_eq_self_iff]
    intro hpos
    have hne : s.dropWhile isWhitespace ≠ [] := by
      intro hnil
      rw [trim, hnil] at hpos
      simp at hpos
    have hget := (List.rdropWhile_prefix isWhitespace (s.dropWhile isWhitespace)).getElem hpos
    have hhead := List.head_dropWhile_not isWhitespace hne
    rw [List.head_eq_getElem, ← hget] at hhead
    exact ne_true_of_eq_false hhead
  rw [show trim (trim s) = ((trim s).dropWhile isWhitespace).rdropWhile isWhitespace from rfl, hdrop]
  exact List.rdropWhile_idempotent _ _

theorem trim_eq_nil_iff {s : Str} : trim s = [] ↔ ∀ c ∈ s, isWhitespace c := by
  constructor
  · intro h c hc
    obtain ⟨l, r, hs, hl, hr⟩ := exists_trim s
    rw [hs, h, List.append_nil, List.mem_append] at hc
    exact hc.elim (hl c) (hr c)
  · intro h
    have hnil : s.dropWhile isWhitespace = [] := List.dropWhile_eq_nil_iff.mpr h
    simp [trim, hnil]

theorem trim_append_left {l : Str} (hl : ∀ c ∈ l, isWhitespace c) (s : Str) :
    trim (l ++ s) = trim s := by
  rw [trim, List.dropWhile_append_of_pos hl, ← trim]

theorem trim_append_right {r : Str} (hr : ∀ c ∈ r, isWhitespace c) (s : Str) :
    trim (s ++ r) = trim s := by
  have hrdrop : ∀ t : Str, (t ++ r).rdropWhile isWhitespace = t.rdropWhile isWhitespace := by
    intro t
    rw [List.rdropWhile, List.reverse_append,
      List.dropWhile_append_of_pos fun c hc => hr c (List.mem_reverse.mp hc), ← List.rdropWhile]
  rw [trim, List.dropWhile_append]
  split
  · rename_i hnil
    rw [List.isEmpty_iff] at hnil
    rw [List.dropWhile_eq_nil_iff.mpr hr, trim, hnil]
  · rw [hrdrop, ← trim]

/-- When what remains of `t` has no white space, cutting `t` cuts what remains. -/
theorem trim_isPrefix {s t : Str} (h : s <+: t) (ht : ∀ c ∈ trim t, isWhitespace c = false) :
    trim s <+: trim t := by
  obtain ⟨l, r, heq, hl, hr⟩ := exists_trim t
  obtain ⟨u, hu⟩ := h
  rw [heq, List.append_assoc] at hu
  rcases List.append_eq_append_iff.mp hu with ⟨a, rfl, -⟩ | ⟨b, rfl, hb⟩
  · rw [trim_eq_nil_iff.mpr fun c hc => hl c (List.mem_append_left _ hc)]
    exact List.nil_prefix
  · rw [trim_append_left hl]
    rcases List.append_eq_append_iff.mp hb with ⟨d, rfl, hd⟩ | ⟨d, hd, -⟩
    · rw [trim_append_right fun c hc => hr c (hd ▸ List.mem_append_left _ hc), trim_trim]
    · rw [hd] at ht ⊢
      rw [trim_eq_self fun c hc => ht c (List.mem_append_left _ hc)]
      exact List.prefix_append b d

/-! ## ASCII case -/

/-- `str::to_ascii_lowercase`. -/
def toAsciiLowercase (s : Str) : Str :=
  s.map Char.toLower

/-- `str::eq_ignore_ascii_case`. -/
def eqIgnoreAsciiCase (s t : Str) : Bool :=
  toAsciiLowercase s == toAsciiLowercase t

/-- Only capitals change. -/
theorem toNat_toLower (c : Char) :
    c.toLower.toNat = if c.isUpper then c.toNat + 32 else c.toNat := by
  by_cases h : c.isUpper
  · have hlower : c.toLower.val = c.val + 32 := by
      delta Char.toLower
      rw [dif_pos (of_decide_eq_true h)]
      rfl
    rw [if_pos h, Char.toNat, hlower, UInt32.toNat_add]
    rw [isUpper_iff, Char.toNat] at h
    refine Nat.mod_eq_of_lt ?_
    change c.val.toNat + 32 < _
    omega
  · have hlower : c.toLower = c := dif_neg fun h' => h (decide_eq_true h')
    rw [if_neg h, hlower]

theorem isUpper_toLower (c : Char) : c.toLower.isUpper = false := by
  rw [Bool.eq_false_iff, ne_eq, isUpper_iff, toNat_toLower]
  split
  · rename_i h
    rw [isUpper_iff] at h
    omega
  · rename_i h
    exact mt isUpper_iff.mpr h

theorem toLower_eq_self {c : Char} (h : c.isUpper = false) : c.toLower = c :=
  Char.toNat_inj.mp (by rw [toNat_toLower, if_neg (Bool.eq_false_iff.mp h)])

/-- A text without capitals is its own lower case. -/
theorem toAsciiLowercase_eq_self {s : Str} (h : ∀ c ∈ s, c.isUpper = false) :
    toAsciiLowercase s = s :=
  (List.map_congr_left fun c hc => toLower_eq_self (h c hc)).trans (List.map_id' s)

theorem isAlphanum_toLower {c : Char} (h : c.isAlphanum) : c.toLower.isAlphanum := by
  rw [isAlphanum_iff, isUpper_iff, isLower_iff, isDigit_iff] at h ⊢
  rw [toNat_toLower]
  simp only [isUpper_iff]
  split <;> omega

@[simp] theorem utf8Size_toLower (c : Char) : c.toLower.utf8Size = c.utf8Size := by
  by_cases h : c.isUpper
  · have hupper := isUpper_iff.mp h
    rw [utf8Size_of_ascii (c := c) (by omega), utf8Size_of_ascii]
    rw [toNat_toLower, if_pos h]
    omega
  · rw [toLower_eq_self (Bool.eq_false_iff.mpr h)]

@[simp] theorem len_toAsciiLowercase (s : Str) : len (toAsciiLowercase s) = len s := by
  induction s with
  | nil => rfl
  | cons c s ih => simpa [toAsciiLowercase] using ih

/-! ## Splitting and searching -/

/-- `str::split_once` at a character. -/
def splitOnce (sep : Char) : Str → Option (Str × Str)
  | [] => none
  | c :: s => if c = sep then some ([], s) else (splitOnce sep s).map fun (a, b) => (c :: a, b)

/-- `str::split(sep).next()`: everything before the first separator. -/
def beforeFirst (sep : Char) (s : Str) : Str :=
  s.takeWhile (· ≠ sep)

/-- `str::split_whitespace`, collected. -/
def splitWhitespace (s : Str) : List Str :=
  (s.splitOnP isWhitespace).filter (· ≠ [])

/-- `str::starts_with`. -/
def startsWith (s pat : Str) : Bool :=
  decide (pat <+: s)

/-- `str::strip_prefix`. -/
def stripPrefix (s pat : Str) : Option Str :=
  if pat <+: s then some (s.drop pat.length) else none

/-- `str::contains`. -/
def contains (s pat : Str) : Bool :=
  decide (pat <:+: s)

theorem splitOnce_append {sep : Char} {a b : Str} (h : sep ∉ a) :
    splitOnce sep (a ++ sep :: b) = some (a, b) := by
  induction a with
  | nil => simp [splitOnce]
  | cons c a ih =>
    obtain ⟨hc, ha⟩ := not_or.mp (mt List.mem_cons.mpr h)
    simp [splitOnce, Ne.symm hc, ih ha]

theorem splitOnce_eq_none {sep : Char} {s : Str} (h : sep ∉ s) : splitOnce sep s = none := by
  induction s with
  | nil => rfl
  | cons c s ih =>
    obtain ⟨hc, hs⟩ := not_or.mp (mt List.mem_cons.mpr h)
    simp [splitOnce, Ne.symm hc, ih hs]

theorem splitOnce_eq_some {sep : Char} {s a b : Str} (h : splitOnce sep s = some (a, b)) :
    s = a ++ sep :: b := by
  induction s generalizing a with
  | nil => simp [splitOnce] at h
  | cons c s ih =>
    simp only [splitOnce] at h
    split at h
    · rename_i hc
      obtain ⟨rfl, rfl⟩ := Prod.mk.inj (Option.some.inj h)
      simp [hc]
    · obtain ⟨⟨a', b'⟩, hsplit, heq⟩ := Option.map_eq_some_iff.mp h
      obtain ⟨rfl, rfl⟩ := Prod.mk.inj heq
      simp [ih hsplit]

theorem not_mem_of_splitOnce {sep : Char} {s a b : Str} (h : splitOnce sep s = some (a, b)) :
    sep ∉ a := by
  induction s generalizing a with
  | nil => simp [splitOnce] at h
  | cons c s ih =>
    simp only [splitOnce] at h
    split at h
    · obtain ⟨rfl, -⟩ := Prod.mk.inj (Option.some.inj h)
      exact List.not_mem_nil
    · rename_i hc
      obtain ⟨⟨a', b'⟩, hsplit, heq⟩ := Option.map_eq_some_iff.mp h
      obtain ⟨rfl, rfl⟩ := Prod.mk.inj heq
      exact List.not_mem_cons_of_ne_of_not_mem (Ne.symm hc) (ih hsplit)

theorem beforeFirst_append {sep : Char} {a b : Str} (h : sep ∉ a) :
    beforeFirst sep (a ++ sep :: b) = a := by
  induction a with
  | nil => simp [beforeFirst]
  | cons c a ih =>
    obtain ⟨hc, ha⟩ := not_or.mp (mt List.mem_cons.mpr h)
    have hrest := ih ha
    simp only [beforeFirst] at hrest ⊢
    rw [List.cons_append, List.takeWhile_cons_of_pos (by simpa using Ne.symm hc), hrest]

theorem beforeFirst_eq_self {sep : Char} {a : Str} (h : sep ∉ a) : beforeFirst sep a = a :=
  List.takeWhile_eq_self_iff.mpr fun c hc => by
    simpa using fun heq : c = sep => h (heq ▸ hc)

theorem beforeFirst_isPrefix {sep : Char} {s t : Str} (h : s <+: t) :
    beforeFirst sep s <+: beforeFirst sep t := by
  obtain ⟨u, rfl⟩ := h
  rw [beforeFirst, beforeFirst, List.takeWhile_append]
  split
  · exact (List.takeWhile_prefix _).trans (List.prefix_append s _)
  · exact List.prefix_refl _

/-- Words joined by single spaces are split back into the words. -/
theorem splitWhitespace_join_cons {a s : Str} (ha : a ≠ []) (hws : ∀ c ∈ a, isWhitespace c = false) :
    splitWhitespace (a ++ ' ' :: s) = a :: splitWhitespace s := by
  simp only [splitWhitespace]
  rw [List.splitOnP_append_cons_of_forall_mem hws ' ' (by decide)]
  simp [ha]

theorem splitWhitespace_word {a : Str} (ha : a ≠ []) (hws : ∀ c ∈ a, isWhitespace c = false) :
    splitWhitespace a = [a] := by
  simp [splitWhitespace, List.splitOnP_eq_singleton hws, ha]

theorem stripPrefix_eq_some {s pat rest : Str} (h : stripPrefix s pat = some rest) :
    s = pat ++ rest := by
  rw [stripPrefix] at h
  split at h
  · rename_i hprefix
    obtain rfl := Option.some.inj h
    exact (List.prefix_iff_eq_append.mp hprefix).symm
  · cases h

end Str

/-! ## Variables of a process -/

/-- The variables of a process. -/
abbrev Environment := Str → Option (List UInt8)

/-- `env::var`: `none` also for a value that is not Unicode. -/
def envVar (environment : Environment) (name : Str) : Option Str :=
  (environment name).bind Utf8.decode

-- SUMMARY: The third-party crates the program calls, as parameters with the documented behaviour it relies on.
import ApmeWebMash.Base.BTreeMap
import ApmeWebMash.Base.JsonEscape
import ApmeWebMash.Base.Markup

/-! # Crates

`serde_json`, `http`, `uuid` and `maud` are not part of the repository. The model takes
their functions as parameters, and a theorem that relies on what one of them
does says so in a hypothesis. For each crate there is also an instance made of
this development's own definitions, which satisfies these hypotheses. -/

/-! ## serde_json -/

/-- `serde_json`: from bytes and from text to the document they hold, from a
    document to the `Value` it deserializes to, and back. A `Value` is again a
    document, in which no object repeats a key. -/
structure SerdeJson where
  parse : List UInt8 → Option Json
  parseStr : Str → Option Json
  value : Json → Option Json
  toVec : Json → Option (List UInt8)
  toString : Json → Option Str

namespace SerdeJson

/-- `serde_json::from_slice::<Value>`, up to the error. -/
def fromSlice (serde : SerdeJson) (bytes : List UInt8) : Option Json :=
  (serde.parse bytes).bind serde.value

/-- `serde_json::from_str::<Value>`, up to the error. -/
def fromStr (serde : SerdeJson) (text : Str) : Option Json :=
  (serde.parseStr text).bind serde.value

/-- No document is empty. -/
def RejectsEmpty (serde : SerdeJson) : Prop :=
  serde.fromSlice [] = none

/-- A text and its bytes hold the same value. -/
def StrAgrees (serde : SerdeJson) : Prop :=
  ∀ text, serde.fromStr text = serde.fromSlice (Utf8.encode text)

/-- Parsing undoes serializing on `v`. -/
def Undoes (serde : SerdeJson) (v : Json) : Prop :=
  ∀ bytes, serde.toVec v = some bytes → serde.fromSlice bytes = some v

/-- Serializing to bytes and to text yields the same characters. -/
def RendersAlike (serde : SerdeJson) : Prop :=
  ∀ v, serde.toVec v = (serde.toString v).map Utf8.encode

/-- A struct of texts is serialized in the compact form. -/
def RendersStrings (serde : SerdeJson) : Prop :=
  ∀ members, (members.map Prod.fst).Nodup →
    serde.toVec (.object (Json.strings members)) =
      some (Utf8.encode (Json.render (.object (Json.strings members))))

/-- The strict parser and the compact renderer. -/
def compact : SerdeJson where
  parse bytes := (Utf8.decode bytes).bind Json.parse
  parseStr := Json.parse
  value := some
  toVec v := some (Utf8.encode (Json.render v))
  toString v := some (Json.render v)

theorem compact_rejectsEmpty : compact.RejectsEmpty := by
  have hparse : Json.parse [] = none := by decide
  have hdecode : Utf8.decode [] = some [] := Utf8.decode_encode []
  simp [RejectsEmpty, fromSlice, compact, hdecode, hparse]

theorem compact_strAgrees : compact.StrAgrees := by
  intro text
  simp [fromStr, fromSlice, compact]

theorem compact_rendersAlike : compact.RendersAlike := fun _ => rfl

theorem compact_rendersStrings : compact.RendersStrings := fun _ _ => rfl

theorem compact_undoes {v : Json} (h : v.WellFormed) : compact.Undoes v := by
  intro bytes hbytes
  obtain rfl := Option.some.inj hbytes
  simp [fromSlice, compact, Json.parse_render h]

end SerdeJson

/-! ## http -/

/-- A header map: the entries in order, under lower-case names. -/
abbrev HeaderMap := List (Str × List UInt8)

/-- `HeaderMap::get`: the first value under a name. -/
def HeaderMap.get (headers : HeaderMap) (name : Str) : Option (List UInt8) :=
  BTreeMap.lookupEntries name headers

/-- `http`: reading a header value as text, and making a name and a value. -/
structure HttpCrate where
  toStr : List UInt8 → Option Str
  headerName : Str → Option Str
  headerValue : Str → Option (List UInt8)

namespace HttpCrate

/-- A value of visible ASCII characters is readable as text. -/
def ReadsVisible (http : HttpCrate) : Prop :=
  ∀ s : Str, (∀ c ∈ s, Str.isVisibleAscii c) → http.toStr (Utf8.encode s) = some s

/-- A lower-case token is a header name. -/
def AcceptsNames (http : HttpCrate) : Prop :=
  ∀ s : Str, s ≠ [] → (∀ c ∈ s, c.isLower || c.isDigit || c == '-') → http.headerName s = some s

/-- Visible ASCII characters make a header value. -/
def AcceptsVisible (http : HttpCrate) : Prop :=
  ∀ s : Str, (∀ c ∈ s, Str.isVisibleAscii c) → http.headerValue s = some (Utf8.encode s)

/-- The byte classes of the crate's documentation. -/
def ascii : HttpCrate where
  toStr bytes :=
    if bytes.all fun b => (32 ≤ b && b < 127) || b == 9 then Utf8.decode bytes else none
  headerName s :=
    if s ≠ [] ∧ s.all fun c => c.isAlphanum || c == '-' then some (Str.toAsciiLowercase s) else none
  headerValue s :=
    if (Utf8.encode s).all fun b => (32 ≤ b && b != 127) || b == 9 then some (Utf8.encode s)
    else none

theorem mem_encode_visible {s : Str} (h : ∀ c ∈ s, Str.isVisibleAscii c) :
    ∀ b ∈ Utf8.encode s, 32 ≤ b ∧ b < 127 := by
  intro b hb
  obtain ⟨c, hc, hb⟩ := List.mem_flatMap.mp hb
  have hvisible := h c hc
  simp only [Str.isVisibleAscii, Bool.and_eq_true, decide_eq_true_eq] at hvisible
  rw [Utf8.utf8EncodeChar_of_ascii (by omega), List.mem_singleton] at hb
  subst hb
  rw [UInt8.le_iff_toNat_le, UInt8.lt_iff_toNat_lt]
  simp only [Nat.toUInt8, UInt8.toNat_ofNat', UInt8.toNat_ofNat]
  omega

theorem ascii_readsVisible : ascii.ReadsVisible := by
  intro s hs
  have hall : (Utf8.encode s).all fun b => (32 ≤ b && b < 127) || b == 9 := by
    rw [List.all_eq_true]
    intro b hb
    obtain ⟨hlow, hhigh⟩ := mem_encode_visible hs b hb
    simp [hlow, hhigh]
  simp only [ascii, hall, ↓reduceIte, Utf8.decode_encode]

theorem ascii_acceptsNames : ascii.AcceptsNames := by
  intro s hne hs
  have hclass : ∀ c : Char, c.isLower || c.isDigit || c == '-' →
      (c.isAlphanum || c == '-') ∧ c.isUpper = false := by
    intro c h
    rw [Bool.eq_false_iff, ne_eq, Str.isUpper_iff]
    simp only [Bool.or_eq_true, beq_iff_eq, Str.isAlphanum_iff] at h ⊢
    rcases h with (h | h) | rfl
    · rw [Str.isLower_iff] at h
      exact ⟨.inl (.inl (.inr (Str.isLower_iff.mpr h))), by omega⟩
    · rw [Str.isDigit_iff] at h
      exact ⟨.inl (.inr (Str.isDigit_iff.mpr h)), by omega⟩
    · decide
  have hall : s.all fun c => c.isAlphanum || c == '-' :=
    List.all_eq_true.mpr fun c hc => (hclass c (hs c hc)).1
  have hlower : Str.toAsciiLowercase s = s :=
    Str.toAsciiLowercase_eq_self fun c hc => (hclass c (hs c hc)).2
  simp only [ascii, hall, hlower, ne_eq, hne, not_false_eq_true, and_self, ↓reduceIte]

theorem ascii_acceptsVisible : ascii.AcceptsVisible := by
  intro s hs
  have hall : (Utf8.encode s).all fun b => (32 ≤ b && b != 127) || b == 9 := by
    rw [List.all_eq_true]
    intro b hb
    obtain ⟨hlow, hhigh⟩ := mem_encode_visible hs b hb
    have hne : b ≠ 127 := by
      rintro rfl
      exact absurd hhigh (by decide)
    simp [hlow, hne]
  simp only [ascii, hall, ↓reduceIte]

end HttpCrate

/-! ## uuid -/

/-- `Uuid`: 128 bits. -/
abbrev Uuid := BitVec 128

/-- `uuid`: the forms in which an identifier is written and read. -/
structure UuidCrate where
  parse : Str → Option Uuid
  display : Uuid → Str

namespace UuidCrate

/-- An identifier is displayed as 36 letters, digits and hyphens. -/
def DisplaysHyphenated (uuid : UuidCrate) : Prop :=
  ∀ id, (uuid.display id).length = 36 ∧ ∀ c ∈ uuid.display id, c.isAlphanum || c == '-'

/-- The hyphenated form with 8, 4, 4, 4 and 12 hexadecimal digits. -/
def hyphenated : UuidCrate where
  parse s :=
    let digits := s.filter (· ≠ '-')
    if s.length = 36 ∧ digits.length = 32 ∧ (∀ i ∈ [8, 13, 18, 23], s[i]? = some '-') ∧
        digits.all fun c => (Numeral.toDigit 16 c).isSome then
      some (BitVec.ofNat 128 (Numeral.digitsValue 16 0 digits))
    else none
  display id :=
    let digits := (List.range 32).map fun i => Nat.digitChar (id.toNat / 16 ^ (31 - i) % 16)
    digits.take 8 ++ '-' :: (digits.drop 8).take 4 ++ '-' :: (digits.drop 12).take 4 ++
      '-' :: (digits.drop 16).take 4 ++ '-' :: digits.drop 20

theorem hyphenated_displays : hyphenated.DisplaysHyphenated := by
  intro id
  have hdigit : ∀ n, n < 16 → (Nat.digitChar n).isAlphanum := by decide
  have hdigits : ∀ c ∈ (List.range 32).map (fun i => Nat.digitChar (id.toNat / 16 ^ (31 - i) % 16)),
      c.isAlphanum := by
    intro c hc
    obtain ⟨i, -, rfl⟩ := List.mem_map.mp hc
    exact hdigit _ (Nat.mod_lt _ (by decide))
  refine ⟨by simp [hyphenated], fun c hc => ?_⟩
  simp only [hyphenated, List.append_assoc, List.cons_append, List.mem_append, List.mem_cons] at hc
  rw [Bool.or_eq_true, beq_iff_eq]
  rcases hc with hc | rfl | hc | rfl | hc | rfl | hc | rfl | hc
  · exact .inl (hdigits c (List.mem_of_mem_take hc))
  · exact .inr rfl
  · exact .inl (hdigits c (List.mem_of_mem_drop (List.mem_of_mem_take hc)))
  · exact .inr rfl
  · exact .inl (hdigits c (List.mem_of_mem_drop (List.mem_of_mem_take hc)))
  · exact .inr rfl
  · exact .inl (hdigits c (List.mem_of_mem_drop (List.mem_of_mem_take hc)))
  · exact .inr rfl
  · exact .inl (hdigits c (List.mem_of_mem_drop hc))

/-! ## Displayed identifiers -/

/-- The last `k` hexadecimal digits of a number, the first of them first. -/
def hexDigits (k n : Nat) : List Char :=
  (List.range k).map fun i => Nat.digitChar (n / 16 ^ (k - 1 - i) % 16)

theorem hexDigits_succ (k n : Nat) :
    hexDigits (k + 1) n = hexDigits k (n / 16) ++ [Nat.digitChar (n % 16)] := by
  rw [hexDigits, List.range_succ, List.map_append, hexDigits]
  congr 1
  · refine List.map_congr_left fun i hi => ?_
    have hlt := List.mem_range.mp hi
    have hexp : k + 1 - 1 - i = (k - 1 - i) + 1 := by omega
    rw [hexp, Nat.pow_succ', Nat.div_div_eq_div_mul]
  · simp

theorem digitsValue_hexDigits (k n : Nat) : Numeral.digitsValue 16 0 (hexDigits k n) = n % 16 ^ k := by
  have hdigit : ∀ d, d < 16 → (Numeral.toDigit 16 (Nat.digitChar d)).getD 0 = d := by decide
  induction k generalizing n with
  | zero => simp [hexDigits, Numeral.digitsValue, Nat.mod_one]
  | succ k ih =>
    rw [hexDigits_succ, Numeral.digitsValue_append, ih]
    simp only [Numeral.digitsValue]
    rw [hdigit _ (Nat.mod_lt _ (by decide)), Nat.pow_succ', Nat.mod_mul]
    omega

/-- Reading an identifier that was displayed gives it back. -/
def ParsesDisplayed (uuid : UuidCrate) : Prop :=
  ∀ id, uuid.parse (uuid.display id) = some id

/-- Digits in groups of 8, 4, 4, 4 and 12. -/
def grouped (digits : Str) : Str :=
  digits.take 8 ++ '-' :: (digits.drop 8).take 4 ++ '-' :: (digits.drop 12).take 4 ++
    '-' :: (digits.drop 16).take 4 ++ '-' :: digits.drop 20

theorem filter_grouped {digits : Str} (h : ∀ c ∈ digits, c ≠ '-') :
    (grouped digits).filter (· ≠ '-') = digits := by
  have hkeep : ∀ part : Str, part ⊆ digits → part.filter (· ≠ '-') = part := fun part hpart =>
    List.filter_eq_self.mpr fun c hc => decide_eq_true (h c (hpart hc))
  have hjoin : ∀ k, (digits.drop k).take 4 ++ digits.drop (k + 4) = digits.drop k := by
    intro k
    rw [← List.drop_drop, List.take_append_drop]
  have hpart : ∀ k, (digits.drop k).take 4 ⊆ digits := fun k c hc =>
    List.mem_of_mem_drop (List.mem_of_mem_take hc)
  have hhyphen : ∀ part : Str, ('-' :: part).filter (· ≠ '-') = part.filter (· ≠ '-') := fun part =>
    List.filter_cons_of_neg (by decide)
  rw [grouped]
  simp only [List.append_assoc, List.cons_append, List.filter_append, hhyphen,
    hkeep _ (List.take_subset 8 digits), hkeep _ (hpart _), hkeep _ (List.drop_subset 20 digits)]
  rw [hjoin 16, hjoin 12, hjoin 8, List.take_append_drop]

theorem hyphens_grouped {digits : Str} (h : digits.length = 32) :
    ∀ i ∈ [8, 13, 18, 23], (grouped digits)[i]? = some '-' := by
  simp [grouped, List.getElem?_append, h]

theorem hyphenated_parsesDisplayed : hyphenated.ParsesDisplayed := by
  intro id
  have hdigit : ∀ d, d < 16 → Nat.digitChar d ≠ '-' ∧ (Numeral.toDigit 16 (Nat.digitChar d)).isSome := by
    decide
  have hchars : ∀ c ∈ hexDigits 32 id.toNat, c ≠ '-' ∧ (Numeral.toDigit 16 c).isSome := by
    intro c hc
    obtain ⟨i, -, rfl⟩ := List.mem_map.mp hc
    exact hdigit _ (Nat.mod_lt _ (by decide))
  have hdisplay : hyphenated.display id = grouped (hexDigits 32 id.toNat) := rfl
  have hlength : (hexDigits 32 id.toNat).length = 32 := by simp [hexDigits]
  have hfilter := filter_grouped fun c hc => (hchars c hc).1
  have hhyphens := hyphens_grouped hlength
  have hall : (hexDigits 32 id.toNat).all fun c => (Numeral.toDigit 16 c).isSome :=
    List.all_eq_true.mpr fun c hc => (hchars c hc).2
  have hlen : (grouped (hexDigits 32 id.toNat)).length = 36 := (hyphenated_displays id).1
  have hvalue : Numeral.digitsValue 16 0 (hexDigits 32 id.toNat) = id.toNat := by
    rw [digitsValue_hexDigits]
    exact Nat.mod_eq_of_lt id.isLt
  rw [hdisplay]
  simp only [hyphenated]
  rw [hfilter, if_pos ⟨hlen, hlength, hhyphens, hall⟩, hvalue, BitVec.ofNat_toNat, BitVec.setWidth_eq]

end UuidCrate

/-! ## maud -/

/-- `maud`: the text of a template, given as its tags and the splices between
    them, and that of one splice. -/
structure MaudCrate where
  html : List Markup.Event → Str
  escape : Str → Str

namespace MaudCrate

/-- A template comes out as it is written, tag after tag, with each splice
    escaped. -/
def WritesTemplates (maud : MaudCrate) : Prop :=
  ∀ events : List Markup.Event, (∀ event ∈ events, event.WellFormed) →
    maud.html events = Markup.render maud.escape events

/-- A splice is escaped for a reader of markup. -/
def EscapesSplices (maud : MaudCrate) : Prop :=
  Markup.Escapes maud.escape

/-- The references to the four marks. -/
def references : MaudCrate where
  html := Markup.render Markup.references
  escape := Markup.references

theorem references_writesTemplates : references.WritesTemplates := fun _ _ => rfl

theorem references_escapesSplices : references.EscapesSplices := Markup.escapes_references

end MaudCrate
